import PairedSource.Proofs.Pointwise

namespace Except

variable {ε ε' α β : Type} {x : Except ε α} {f : α → Except ε β}

theorem ok_bind (a : α) (f : α → Except ε β) : (.ok a : Except ε α) >>= f = f a := rfl

theorem error_bind (e : ε) (f : α → Except ε β) : (.error e : Except ε α) >>= f = .error e := rfl

theorem bind_eq_ok_iff {b : β} : x >>= f = .ok b ↔ ∃ a, x = .ok a ∧ f a = .ok b := by
  cases x <;> simp [bind, Except.bind]

theorem bind_ok_eq_ok_iff {g : α → β} {b : β} :
    (x >>= fun a ↦ .ok (g a)) = .ok b ↔ ∃ a, x = .ok a ∧ g a = b := by
  cases x <;> simp [bind, Except.bind]

theorem bind_eq_error_iff {e : ε} :
    x >>= f = .error e ↔ x = .error e ∨ ∃ a, x = .ok a ∧ f a = .error e := by
  cases x <;> simp [bind, Except.bind]

theorem map_eq_ok_iff {g : α → β} {b : β} : x.map g = .ok b ↔ ∃ a, x = .ok a ∧ g a = b := by
  cases x <;> simp [Except.map]

theorem mapError_ok (g : ε → ε') (a : α) : (.ok a : Except ε α).mapError g = .ok a := rfl

theorem mapError_error (g : ε → ε') (e : ε) :
    (.error e : Except ε α).mapError g = .error (g e) := rfl

theorem mapError_eq_error_iff {g : ε → ε'} {e : ε'} :
    x.mapError g = .error e ↔ ∃ e', x = .error e' ∧ g e' = e := by
  cases x with
  | ok b => simp [mapError_ok]
  | error e => simp [mapError_error]

theorem mapError_eq_ok_iff {g : ε → ε'} {a : α} : x.mapError g = .ok a ↔ x = .ok a := by
  cases x with
  | ok b => simp [mapError_ok]
  | error e => simp [mapError_error]

theorem toOption_eq_some_iff {a : α} : x.toOption = some a ↔ x = .ok a := by
  cases x <;> simp [Except.toOption]

theorem toOption_bind : (x >>= f).toOption = x.toOption.bind fun a ↦ (f a).toOption := by
  cases x <;> rfl

theorem toOption_mapM {γ : Type} (g : γ → Except ε α) (l : List γ) :
    (l.mapM g).toOption = l.mapM fun c ↦ (g c).toOption := by
  induction l with
  | nil => rfl
  | cons c l ih =>
    rw [List.mapM_cons, List.mapM_cons, toOption_bind, ← ih]
    congr 1
    funext a
    cases l.mapM g <;> rfl

theorem mapM_eq_ok_iff {γ : Type} {g : γ → Except ε α} {l : List γ} {as : List α} :
    l.mapM g = .ok as ↔ List.Forall₂ (fun c a ↦ g c = .ok a) l as := by
  induction l generalizing as with
  | nil =>
    rw [List.forall₂_nil_left_iff, List.mapM_nil]
    constructor
    · intro h
      exact (Except.ok.inj h).symm
    · intro h
      rw [h]
      rfl
  | cons c l ih =>
    rw [List.mapM_cons, bind_eq_ok_iff, List.forall₂_cons_left_iff]
    constructor
    · intro h
      obtain ⟨a, ha, h⟩ := h
      obtain ⟨rest, hrest, h⟩ := bind_eq_ok_iff.1 h
      exact ⟨a, rest, ha, ih.1 hrest, (Except.ok.inj h).symm⟩
    · intro h
      obtain ⟨a, rest, ha, hrest, rfl⟩ := h
      refine ⟨a, ha, ?_⟩
      rw [ih.2 hrest]
      rfl

theorem mapM_append_eq_ok {γ : Type} {g : γ → Except ε α} {l l' : List γ} {as as' : List α}
    (h : l.mapM g = .ok as) (h' : l'.mapM g = .ok as') :
    (l ++ l').mapM g = .ok (as ++ as') := by
  rw [List.mapM_append, h, h']
  rfl

theorem mapM_append_cons_eq_ok_iff {γ : Type} {g : γ → Except ε α} {l l' : List γ} {c : γ}
    {as : List α} : (l ++ c :: l').mapM g = .ok as ↔ ∃ bs a bs', l.mapM g = .ok bs ∧
      g c = .ok a ∧ l'.mapM g = .ok bs' ∧ as = bs ++ a :: bs' := by
  rw [List.mapM_append, bind_eq_ok_iff]
  constructor
  · intro h
    obtain ⟨bs, hbs, h⟩ := h
    obtain ⟨rest, hrest, h⟩ := bind_eq_ok_iff.1 h
    rw [List.mapM_cons, bind_eq_ok_iff] at hrest
    obtain ⟨a, ha, hrest⟩ := hrest
    obtain ⟨bs', hbs', hrest⟩ := bind_eq_ok_iff.1 hrest
    obtain rfl := Except.ok.inj hrest
    exact ⟨bs, a, bs', hbs, ha, hbs', (Except.ok.inj h).symm⟩
  · intro h
    obtain ⟨bs, a, bs', hbs, ha, hbs', rfl⟩ := h
    refine ⟨bs, hbs, ?_⟩
    rw [List.mapM_cons, ha, hbs']
    rfl

theorem foldlM_eq_error_iff {γ : Type} {g : β → γ → Except ε β} {l : List γ} {b : β} {e : ε} :
    l.foldlM g b = .error e ↔ ∃ before c after b', l = before ++ c :: after ∧
      before.foldlM g b = .ok b' ∧ g b' c = .error e := by
  induction l generalizing b with
  | nil =>
    constructor
    · intro h
      cases h
    · intro h
      obtain ⟨before, c, after, _, hl, -⟩ := h
      exact absurd hl.symm (by simp)
  | cons c l ih =>
    rw [List.foldlM_cons, bind_eq_error_iff]
    constructor
    · intro h
      rcases h with h | ⟨b', hb', h⟩
      · exact ⟨[], c, l, b, rfl, rfl, h⟩
      · obtain ⟨before, d, after, b'', rfl, hbefore, hd⟩ := ih.1 h
        refine ⟨c :: before, d, after, b'', rfl, ?_, hd⟩
        rw [List.foldlM_cons, hb', ok_bind, hbefore]
    · intro h
      obtain ⟨before, d, after, b', hl, hbefore, hd⟩ := h
      cases before with
      | nil =>
        obtain ⟨rfl, rfl⟩ := List.cons.inj hl
        obtain rfl := Except.ok.inj hbefore
        exact .inl hd
      | cons c' before =>
        obtain ⟨rfl, rfl⟩ := List.cons.inj hl
        rw [List.foldlM_cons, bind_eq_ok_iff] at hbefore
        obtain ⟨b'', hb'', hbefore⟩ := hbefore
        exact .inr ⟨b'', hb'', ih.2 ⟨before, d, after, b', rfl, hbefore, hd⟩⟩

/-- A traversal fails where the first of its steps does. -/
theorem mapM_eq_error_iff {γ : Type} {g : γ → Except ε α} {l : List γ} {e : ε} :
    l.mapM g = .error e ↔ ∃ before c after, l = before ++ c :: after ∧
      (∃ as, before.mapM g = .ok as) ∧ g c = .error e := by
  induction l with
  | nil =>
    constructor
    · intro h
      cases h
    · intro h
      obtain ⟨before, c, after, hl, -⟩ := h
      exact absurd hl.symm (by simp)
  | cons c l ih =>
    rw [List.mapM_cons, bind_eq_error_iff]
    constructor
    · intro h
      rcases h with h | ⟨a, ha, h⟩
      · exact ⟨[], c, l, rfl, ⟨[], rfl⟩, h⟩
      · rcases bind_eq_error_iff.1 h with h | ⟨_, -, h⟩
        · obtain ⟨before, d, after, rfl, ⟨as, hbefore⟩, hd⟩ := ih.1 h
          refine ⟨c :: before, d, after, rfl, ⟨a :: as, ?_⟩, hd⟩
          rw [List.mapM_cons, ha, ok_bind, hbefore]
          rfl
        · cases h
    · intro h
      obtain ⟨before, d, after, hl, ⟨as, hbefore⟩, hd⟩ := h
      cases before with
      | nil =>
        obtain ⟨rfl, rfl⟩ := List.cons.inj hl
        exact .inl hd
      | cons c' before =>
        obtain ⟨rfl, rfl⟩ := List.cons.inj hl
        rw [List.mapM_cons, bind_eq_ok_iff] at hbefore
        obtain ⟨a, ha, hbefore⟩ := hbefore
        obtain ⟨as, has, -⟩ := bind_eq_ok_iff.1 hbefore
        exact .inr ⟨a, ha, bind_eq_error_iff.2 (.inl (ih.2 ⟨before, d, after, rfl, ⟨as, has⟩, hd⟩))⟩

theorem exists_of_mapM_eq_error {γ : Type} {g : γ → Except ε α} {l : List γ} {e : ε}
    (h : l.mapM g = .error e) : ∃ c ∈ l, g c = .error e := by
  obtain ⟨before, c, after, rfl, -, hc⟩ := mapM_eq_error_iff.1 h
  exact ⟨c, by simp, hc⟩

theorem exists_mapM_eq_ok_iff {γ : Type} {g : γ → Except ε α} {l : List γ} :
    (∃ as, l.mapM g = .ok as) ↔ ∀ c ∈ l, ∃ a, g c = .ok a := by
  constructor
  · intro h
    obtain ⟨as, has⟩ := h
    intro c hc
    obtain ⟨a, -, ha⟩ := (mapM_eq_ok_iff.1 has).exists_of_mem_left hc
    exact ⟨a, ha⟩
  · intro h
    cases hl : l.mapM g with
    | ok as => exact ⟨as, rfl⟩
    | error e =>
      obtain ⟨c, hc, he⟩ := exists_of_mapM_eq_error hl
      obtain ⟨a, ha⟩ := h c hc
      rw [ha] at he
      cases he

theorem exists_mapM_bind_eq {γ : Type} {g : γ → Except ε α} {l : List γ}
    (h : ∀ c ∈ l, ∃ a, g c = .ok a) (f : List α → Except ε β) : ∃ as, l.mapM g >>= f = f as := by
  obtain ⟨as, has⟩ := exists_mapM_eq_ok_iff.2 h
  exact ⟨as, by rw [has, ok_bind]⟩

def error? : Except ε α → Option ε
  | .ok _ => none
  | .error e => some e

theorem error?_eq_some_iff {e : ε} : x.error? = some e ↔ x = .error e := by
  cases x <;> simp [error?]

theorem error?_mapM {γ : Type} (g : γ → Except ε α) (l : List γ) :
    (l.mapM g).error? = l.findSome? fun c ↦ (g c).error? := by
  induction l with
  | nil => rfl
  | cons c l ih =>
    rw [List.mapM_cons, List.findSome?_cons, ← ih]
    cases g c with
    | error e => rfl
    | ok a => cases l.mapM g <;> rfl

/-- Every error that can come out has a property. -/
def FailsWith (p : ε → Prop) (x : Except ε α) : Prop :=
  ∀ e, x = .error e → p e

namespace FailsWith

variable {p : ε → Prop}

theorem ok (a : α) : FailsWith p (.ok a) :=
  fun _ h ↦ nomatch h

theorem error {e : ε} (h : p e) : FailsWith p (.error e : Except ε α) := by
  intro e' heq
  obtain rfl := Except.error.inj heq
  exact h

theorem bind (hx : FailsWith p x) (hf : ∀ a, FailsWith p (f a)) : FailsWith p (x >>= f) := by
  intro e h
  rcases bind_eq_error_iff.1 h with h | ⟨a, -, h⟩
  · exact hx e h
  · exact hf a e h

theorem mapError {q : ε' → Prop} {g : ε → ε'} (hx : FailsWith p x) (hg : ∀ e, p e → q (g e)) :
    FailsWith q (x.mapError g) := by
  intro e h
  obtain ⟨e', hx', rfl⟩ := mapError_eq_error_iff.1 h
  exact hg e' (hx e' hx')

theorem map (g : α → β) (hx : FailsWith p x) : FailsWith p (x.map g) := by
  intro e h
  cases hcase : x with
  | ok a =>
    rw [hcase] at h
    cases h
  | error e' =>
    rw [hcase] at h
    obtain rfl := Except.error.inj h
    exact hx e' hcase

theorem mapM {γ : Type} {g : γ → Except ε α} (hg : ∀ c, FailsWith p (g c)) (l : List γ) :
    FailsWith p (l.mapM g) := by
  intro e h
  obtain ⟨c, -, h⟩ := exists_of_mapM_eq_error h
  exact hg c e h

theorem foldlM {γ : Type} {g : α → γ → Except ε α} (hg : ∀ a c, FailsWith p (g a c))
    (a : α) (l : List γ) : FailsWith p (l.foldlM g a) := by
  induction l generalizing a with
  | nil => exact .ok a
  | cons c l ih =>
    rw [List.foldlM_cons]
    exact (hg a c).bind ih

end FailsWith

def Yields (p : α → Prop) (x : Except ε α) : Prop :=
  ∀ a, x = .ok a → p a

namespace Yields

variable {p : α → Prop} {q : β → Prop}

theorem ok {a : α} (h : p a) : Yields p (.ok a : Except ε α) := by
  intro a' heq
  obtain rfl := Except.ok.inj heq
  exact h

theorem error (e : ε) : Yields p (.error e) :=
  fun _ h ↦ nomatch h

theorem bind (hf : ∀ a, x = .ok a → Yields q (f a)) : Yields q (x >>= f) := by
  intro b h
  obtain ⟨a, ha, h⟩ := bind_eq_ok_iff.1 h
  exact hf a ha b h

theorem map {g : α → β} (hx : Yields p x) (hg : ∀ a, p a → q (g a)) : Yields q (x.map g) := by
  intro b h
  obtain ⟨a, ha, rfl⟩ := map_eq_ok_iff.1 h
  exact hg a (hx a ha)

theorem foldlM {γ : Type} {g : α → γ → Except ε α} {l : List γ} {a : α} (ha : p a)
    (hg : ∀ a c, c ∈ l → p a → Yields p (g a c)) : Yields p (l.foldlM g a) := by
  induction l generalizing a with
  | nil => exact .ok ha
  | cons c l ih =>
    rw [List.foldlM_cons]
    exact .bind fun b hb ↦ ih (hg a c List.mem_cons_self ha b hb) fun a c hc ↦
      hg a c (List.mem_cons_of_mem _ hc)

end Yields

/-- Both fail with one error, or both succeed with results that are related. -/
inductive Alike (R : α → β → Prop) : Except ε α → Except ε β → Prop
  | error (e : ε) : Alike R (.error e) (.error e)
  | ok {a : α} {b : β} (h : R a b) : Alike R (.ok a) (.ok b)

theorem Alike.bind {γ : Type} {R : β → γ → Prop} {g : α → Except ε γ}
    (h : ∀ a, x = .ok a → Alike R (f a) (g a)) : Alike R (x >>= f) (x >>= g) := by
  cases x with
  | error e => exact .error e
  | ok a => exact h a rfl

/-- Both fail with errors that are related, or both succeed with results that are. -/
inductive Matches (E : ε → ε → Prop) (R : α → β → Prop) : Except ε α → Except ε β → Prop
  | error {e e' : ε} (h : E e e') : Matches E R (.error e) (.error e')
  | ok {a : α} {b : β} (h : R a b) : Matches E R (.ok a) (.ok b)

namespace Matches

variable {E : ε → ε → Prop} {R : α → β → Prop} {y : Except ε β}

theorem self {S : α → α → Prop} (hE : ∀ e, E e e) (hS : ∀ a, S a a) (x : Except ε α) :
    Matches E S x x := by
  cases x with
  | error e => exact .error (hE e)
  | ok a => exact .ok (hS a)

theorem bind {γ δ : Type} {S : γ → δ → Prop} {f : α → Except ε γ} {g : β → Except ε δ}
    (h : Matches E R x y) (hnext : ∀ a b, x = .ok a → y = .ok b → R a b → Matches E S (f a) (g b)) :
    Matches E S (x >>= f) (y >>= g) := by
  cases h with
  | error h => exact .error h
  | ok h => exact hnext _ _ rfl rfl h

theorem exists_ok {a : α} (h : Matches E R (.ok a) y) : ∃ b, y = .ok b ∧ R a b := by
  cases h with
  | ok hR => exact ⟨_, rfl, hR⟩

theorem mapM {γ δ : Type} {f : γ → Except ε α} {g : δ → Except ε β} {l : List γ} {l' : List δ}
    (h : List.Forall₂ (fun c d ↦ Matches E R (f c) (g d)) l l') :
    Matches E (List.Forall₂ R) (l.mapM f) (l'.mapM g) := by
  induction h with
  | nil => exact .ok .nil
  | cons hhead _ ih =>
    rw [List.mapM_cons, List.mapM_cons]
    exact hhead.bind fun _ _ _ _ hR ↦ ih.bind fun _ _ _ _ hRs ↦ .ok (.cons hR hRs)

end Matches

end Except
