import Mathlib.Data.List.Nodup
import PairedSource.Population
import PairedSource.Proofs.Except

namespace PairedSource.Population

variable {μ : Type} {naming : NamingPolicy} {config : RunConfig} {model : UnitModel μ}
  {context : UnitContext μ} {renderer : Renderer μ} {key : String}
  {named result : List (NamedMember μ)} {members : List (Member μ)}

variable (naming config model context) in
structure Names : Prop where
  key : context.key = model.key
  name : naming.typeName model.key config.namePrefix = .ok context.name
  members : context.members.map NamedMember.toMember = model.members
  memberName : ∀ member ∈ context.members, naming.memberName member.key = .ok member.name
  nodup : (context.members.map NamedMember.name).Nodup

variable (naming) in
structure IsNamed (named : List (NamedMember μ)) : Prop where
  memberName : ∀ member ∈ named, naming.memberName member.key = .ok member.name
  nodup : (named.map NamedMember.name).Nodup

theorem isNamed_nil : IsNamed naming ([] : List (NamedMember μ)) :=
  ⟨fun _ h ↦ (List.not_mem_nil h).elim, List.nodup_nil⟩

theorem IsNamed.of_append {more : List (NamedMember μ)} (h : IsNamed naming (named ++ more)) :
    IsNamed naming named := by
  refine ⟨fun member hmember ↦ h.memberName member (List.mem_append_left _ hmember), ?_⟩
  exact h.nodup.sublist ((List.sublist_append_left _ _).map _)

theorem isNamed_concat_iff {member : NamedMember μ} : IsNamed naming (named ++ [member]) ↔
    IsNamed naming named ∧ naming.memberName member.key = .ok member.name ∧
      ∀ first ∈ named, first.name ≠ member.name := by
  constructor
  · intro h
    have hnodup := h.nodup
    rw [List.map_append, List.nodup_append] at hnodup
    refine ⟨h.of_append, h.memberName member (by simp), fun first hfirst ↦ ?_⟩
    exact hnodup.2.2 _ (List.mem_map_of_mem hfirst) _ (by simp)
  · intro h
    obtain ⟨⟨hall, hnodup⟩, hmember, hfree⟩ := h
    constructor
    · intro m hm
      rcases List.mem_append.1 hm with hm | hm
      · exact hall m hm
      · rwa [List.mem_singleton.1 hm]
    · rw [List.map_append, List.nodup_append]
      refine ⟨hnodup, by simp, fun name hname last hlast ↦ ?_⟩
      obtain ⟨first, hfirst, rfl⟩ := List.mem_map.1 hname
      rw [List.map_singleton, List.mem_singleton] at hlast
      rw [hlast]
      exact hfree first hfirst

variable (naming) in
/-- Why a member cannot follow others: it has no name, or that of one of them. -/
inductive MemberFault (unit : String) (named : List (NamedMember μ)) (member : Member μ) :
    Error → Prop
  | rejected {reason : Rejection} (h : naming.memberName member.key = .error reason) :
    MemberFault unit named member (.invalidKey unit member.key reason)
  | repeated {first : NamedMember μ} (hfirst : first ∈ named)
    (h : naming.memberName member.key = .ok first.name) :
    MemberFault unit named member (.duplicateMemberName unit first.name first.key member.key)

theorem nameMembers_eq_foldlM : nameMembers naming key named members =
    members.foldlM (fun named member ↦ nameMembers naming key named [member]) named := by
  induction members generalizing named with
  | nil => rfl
  | cons member members ih =>
    rw [List.foldlM_cons, nameMembers, nameMembers]
    cases naming.memberName member.key with
    | error reason => rfl
    | ok name =>
      simp only
      cases named.find? (·.name == name) with
      | some first => rfl
      | none => exact ih

section Member

variable {member : Member μ} {e : Error} (hnamed : IsNamed naming named)

include hnamed

theorem nameMember_eq_ok_iff : nameMembers naming key named [member] = .ok result ↔
    ∃ name, result = named ++ [{ member with name }] ∧ IsNamed naming result := by
  rw [nameMembers]
  cases hname : naming.memberName member.key with
  | error reason =>
    simp only [reduceCtorEq, false_iff, not_exists, not_and]
    rintro name rfl h
    have haccepted := (isNamed_concat_iff.1 h).2.1
    rw [hname] at haccepted
    cases haccepted
  | ok name =>
    simp only [nameMembers]
    cases hfind : named.find? (·.name == name) with
    | some first =>
      simp only [reduceCtorEq, false_iff, not_exists, not_and]
      rintro other rfl h
      obtain ⟨-, hother, hfree⟩ := isNamed_concat_iff.1 h
      obtain rfl : name = other := Except.ok.inj (hname.symm.trans hother)
      exact hfree first (List.mem_of_find?_eq_some hfind)
        (by simpa using List.find?_some hfind)
    | none =>
      have hfree : ∀ first ∈ named, first.name ≠ name := by
        intro first hfirst
        simpa using List.find?_eq_none.1 hfind first hfirst
      simp only [Except.ok.injEq]
      constructor
      · rintro rfl
        exact ⟨name, rfl, isNamed_concat_iff.2 ⟨hnamed, hname, hfree⟩⟩
      · rintro ⟨other, rfl, h⟩
        obtain ⟨-, hother, -⟩ := isNamed_concat_iff.1 h
        obtain rfl : name = other := Except.ok.inj (hname.symm.trans hother)
        rfl

theorem nameMember_eq_error_iff : nameMembers naming key named [member] = .error e ↔
    MemberFault naming key named member e := by
  rw [nameMembers]
  cases hname : naming.memberName member.key with
  | error reason =>
    simp only [Except.error.injEq]
    constructor
    · rintro rfl
      exact .rejected hname
    · intro h
      cases h with
      | rejected h =>
        obtain rfl := Except.error.inj (hname.symm.trans h)
        rfl
      | repeated hfirst h =>
        rw [hname] at h
        cases h
  | ok name =>
    simp only [nameMembers]
    have hfault : MemberFault naming key named member e ↔ ∃ first ∈ named, first.name = name ∧
        e = .duplicateMemberName key name first.key member.key := by
      constructor
      · intro h
        cases h with
        | rejected h =>
          rw [hname] at h
          cases h
        | repeated hfirst h =>
          obtain rfl := Except.ok.inj (hname.symm.trans h)
          exact ⟨_, hfirst, rfl, rfl⟩
      · rintro ⟨first, hfirst, rfl, rfl⟩
        exact .repeated hfirst hname
    rw [hfault]
    cases hfind : named.find? (·.name == name) with
    | some first =>
      have hfirst := List.mem_of_find?_eq_some hfind
      have heq : first.name = name := by simpa using List.find?_some hfind
      simp only [Except.error.injEq]
      constructor
      · rintro rfl
        exact ⟨first, hfirst, heq, rfl⟩
      · rintro ⟨other, hother, hsame, rfl⟩
        obtain rfl := List.inj_on_of_nodup_map hnamed.nodup hfirst hother (heq.trans hsame.symm)
        rfl
    | none =>
      simp only [reduceCtorEq, false_iff, not_exists, not_and]
      intro first hfirst heq
      exact absurd heq (by simpa using List.find?_eq_none.1 hfind first hfirst)

end Member

theorem nameMembers_eq_ok_iff (hnamed : IsNamed naming named) :
    nameMembers naming key named members = .ok result ↔
      ∃ added, result = named ++ added ∧ added.map NamedMember.toMember = members ∧
        IsNamed naming result := by
  induction members generalizing named with
  | nil =>
    constructor
    · intro h
      obtain rfl : named = result := Except.ok.inj h
      exact ⟨[], by simp, rfl, hnamed⟩
    · intro h
      obtain ⟨added, rfl, hadded, -⟩ := h
      rw [List.map_eq_nil_iff.1 hadded, List.append_nil]
      rfl
  | cons member members ih =>
    rw [nameMembers_eq_foldlM, List.foldlM_cons, Except.bind_eq_ok_iff]
    constructor
    · intro h
      obtain ⟨next, hnext, hrest⟩ := h
      obtain ⟨name, rfl, hnamed'⟩ := (nameMember_eq_ok_iff hnamed).1 hnext
      rw [← nameMembers_eq_foldlM, ih hnamed'] at hrest
      obtain ⟨added, rfl, rfl, hresult⟩ := hrest
      exact ⟨{ member with name } :: added, List.append_assoc .., rfl, hresult⟩
    · intro h
      obtain ⟨added, rfl, hadded, hresult⟩ := h
      cases added with
      | nil => cases hadded
      | cons first added =>
        obtain ⟨rfl, rfl⟩ := List.cons.inj hadded
        have hsplit := List.append_cons named first added
        have hfirst : IsNamed naming (named ++ [first]) := (hsplit ▸ hresult).of_append
        refine ⟨named ++ [first], (nameMember_eq_ok_iff hnamed).2 ⟨first.name, rfl, hfirst⟩, ?_⟩
        rw [← nameMembers_eq_foldlM, ih hfirst]
        exact ⟨added, hsplit, rfl, hresult⟩

theorem nameMembers_eq_error_iff {e : Error} : nameMembers naming key [] members = .error e ↔
    ∃ before member after named, members = before ++ member :: after ∧
      named.map NamedMember.toMember = before ∧ IsNamed naming named ∧
      MemberFault naming key named member e := by
  rw [nameMembers_eq_foldlM, Except.foldlM_eq_error_iff]
  refine exists_congr fun before ↦ exists_congr fun member ↦ exists_congr fun after ↦
    exists_congr fun named ↦ and_congr_right fun _ ↦ ?_
  rw [← nameMembers_eq_foldlM, nameMembers_eq_ok_iff isNamed_nil]
  constructor
  · intro h
    obtain ⟨⟨added, hadded, hbefore, hnamed⟩, hfault⟩ := h
    rw [List.nil_append] at hadded
    subst hadded
    exact ⟨hbefore, hnamed, (nameMember_eq_error_iff hnamed).1 hfault⟩
  · intro h
    obtain ⟨hbefore, hnamed, hfault⟩ := h
    exact ⟨⟨named, rfl, hbefore, hnamed⟩, (nameMember_eq_error_iff hnamed).2 hfault⟩

variable (naming config) in
/-- Why a unit cannot be named: its key is rejected, or else the first of its members that cannot
follow those before it. -/
inductive NamingFault (model : UnitModel μ) : Error → Prop
  | key {reason : Rejection} (h : naming.typeName model.key config.namePrefix = .error reason) :
    NamingFault model (.invalidKey model.key model.key reason)
  | member {name : String} {before after : List (Member μ)} {member : Member μ}
    {named : List (NamedMember μ)} {e : Error}
    (hname : naming.typeName model.key config.namePrefix = .ok name)
    (hmembers : model.members = before ++ member :: after)
    (hbefore : named.map NamedMember.toMember = before) (hnamed : IsNamed naming named)
    (h : MemberFault naming model.key named member e) : NamingFault model e

theorem context_eq_error_iff {e : Error} :
    Population.context naming config model = .error e ↔ NamingFault naming config model e := by
  rw [Population.context, Except.bind_eq_error_iff, Except.mapError_eq_error_iff]
  constructor
  · intro h
    rcases h with ⟨reason, hreason, rfl⟩ | ⟨name, hname, h⟩
    · exact .key hreason
    · rcases Except.bind_eq_error_iff.1 h with h | ⟨_, -, h⟩
      · obtain ⟨before, member, after, named, hmembers, hbefore, hnamed, hfault⟩ :=
          nameMembers_eq_error_iff.1 h
        exact .member (Except.mapError_eq_ok_iff.1 hname) hmembers hbefore hnamed hfault
      · cases h
  · intro h
    cases h with
    | key h => exact .inl ⟨_, h, rfl⟩
    | member hname hmembers hbefore hnamed h =>
      refine .inr ⟨_, Except.mapError_eq_ok_iff.2 hname, Except.bind_eq_error_iff.2 (.inl ?_)⟩
      exact nameMembers_eq_error_iff.2 ⟨_, _, _, _, hmembers, hbefore, hnamed, h⟩

theorem context_eq_ok_iff : Population.context naming config model = .ok context ↔
    Names naming config model context ∧ context.config = config := by
  simp only [Population.context, Except.bind_eq_ok_iff, Except.mapError_eq_ok_iff,
    nameMembers_eq_ok_iff isNamed_nil, List.nil_append]
  constructor
  · intro h
    obtain ⟨name, hname, members, ⟨_, rfl, hmembers, hnamed⟩, h⟩ := h
    obtain rfl := Except.ok.inj h
    exact ⟨⟨rfl, hname, hmembers, hnamed.memberName, hnamed.nodup⟩, rfl⟩
  · intro h
    obtain ⟨⟨hkey, hname, hmembers, hall, hnodup⟩, hconfig⟩ := h
    refine ⟨context.name, hname, context.members, ⟨_, rfl, hmembers, hall, hnodup⟩, ?_⟩
    rw [← hkey, ← hconfig]
    rfl

theorem checkPrefix_of_populate {models : List (UnitModel μ)} {units : List SourceUnit}
    (h : populate naming renderer config models = .ok units) :
    checkPrefix naming config = .ok ⟨⟩ := by
  simp only [populate, Except.bind_eq_ok_iff] at h
  obtain ⟨_, hprefix, -⟩ := h
  exact Except.mapError_eq_ok_iff.1 hprefix

/-- Every model has a context of its own from which its unit is rendered. -/
theorem forall₂_of_populate {models : List (UnitModel μ)} {units : List SourceUnit}
    (h : populate naming renderer config models = .ok units) :
    List.Forall₂ (fun model unit ↦ ∃ context, Names naming config model context ∧
      render renderer context model.imports = .ok unit) models units := by
  simp only [populate, Except.bind_eq_ok_iff] at h
  obtain ⟨_, -, h⟩ := h
  refine (Except.mapM_eq_ok_iff.1 h).imp ?_
  intro model unit hunit
  simp only [populateUnit, Except.bind_eq_ok_iff] at hunit
  obtain ⟨context, hcontext, hunit⟩ := hunit
  exact ⟨context, (context_eq_ok_iff.1 (Except.mapError_eq_ok_iff.1 hcontext)).1, hunit⟩

end PairedSource.Population
