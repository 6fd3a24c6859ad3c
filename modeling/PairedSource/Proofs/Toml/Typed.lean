import PairedSource.Proofs.Pointwise
import PairedSource.Proofs.Toml.Built
import PairedSource.Toml.Decode

namespace PairedSource.Toml

open Except

variable {α : Type} {P : Lexeme → Prop} {given : Located Value}
  {entries fields : List (String × Keyed Value)} {key : String}

/-- The entries of a value that is taken for a map. A date or time counts as a map with one
entry. -/
def entriesOf (given : Located Value) : List (String × Keyed Value) :=
  match given.value with
  | .table table => table.fields
  | .dateTime dateTime => dateTimeFields dateTime given.span
  | _ => []

namespace Typed

theorem text_eq_ok {expected s : String} (h : text expected given = .ok s) :
    given.value = .text s := by
  unfold text at h
  split at h
  · rename_i heq
    rw [heq, Except.ok.inj h]
  · cases h

theorem string_eq_ok {s : String} (h : string given = .ok s) : given.value = .text s :=
  text_eq_ok h

theorem path_eq_ok {p : Path} (h : path given = .ok p) : given.value = .text p.text := by
  obtain ⟨s, hs, rfl⟩ := map_eq_ok_iff.1 h
  exact text_eq_ok hs

theorem boolean_eq_ok {b : Bool} (h : boolean given = .ok b) : given.value = .boolean b := by
  unfold boolean at h
  split at h
  · rename_i heq
    rw [heq, Except.ok.inj h]
  · cases h

theorem fields_eq_ok {expected : String} (h : Typed.fields expected given = .ok entries) :
    entries = entriesOf given := by
  obtain ⟨value, span⟩ := given
  cases value with
  | table | dateTime => exact (Except.ok.inj h).symm
  | _ => cases h

theorem map_eq_ok {item : Located Value → Typed α} {result : List (String × α)}
    (h : Typed.map item given = .ok result) :
    List.Forall₂ (fun entry out ↦ entry.1 = out.1 ∧ item entry.2.toLocated = .ok out.2)
      (entriesOf given) result := by
  obtain ⟨entries, hentries, h⟩ := bind_eq_ok_iff.1 h
  obtain rfl := fields_eq_ok hentries
  refine (mapM_eq_ok_iff.1 h).imp fun entry out hout ↦ ?_
  obtain ⟨value, hvalue, hout⟩ := bind_eq_ok_iff.1 hout
  obtain rfl := Except.ok.inj hout
  exact ⟨rfl, hvalue⟩

end Typed

variable (P) in
/-- A value that was read where it stands, or the text of a date or time that was. -/
def Traced (given : Located Value) : Prop :=
  Built P given ∨ ∃ dateTime, given.value = .text dateTime.text ∧
    Built P ⟨.dateTime dateTime, given.span⟩

theorem Traced.entry (h : Traced P given) :
    ∀ entry ∈ entriesOf given, Traced P entry.2.toLocated := by
  intro entry hentry
  obtain ⟨value, span⟩ := given
  rcases h with h | ⟨dateTime, htext, -⟩
  · cases value with
    | table table => exact .inl (h.toTable.field entry hentry)
    | dateTime dateTime =>
      obtain rfl := List.mem_singleton.1 hentry
      exact .inr ⟨dateTime, rfl, h⟩
    | _ => cases hentry
  · dsimp only at htext
    subst htext
    cases hentry

theorem Traced.item {items : List (Located Value)} (h : Traced P given)
    (hitems : given.value.items? = some items) : ∀ item ∈ items, Traced P item := by
  intro item hitem
  obtain ⟨value, span⟩ := given
  rcases h with h | ⟨dateTime, htext, -⟩
  · cases value with
    | array others =>
      obtain rfl := Option.some.inj hitems
      exact .inl (h.item item hitem)
    | tables elements =>
      obtain rfl := Option.some.inj hitems
      obtain ⟨element, helement, rfl⟩ := List.mem_map.1 hitem
      exact .inl (h.element element helement).ofTable
    | _ => cases hitems
  · dsimp only at htext
    subst htext
    cases hitems

theorem Traced.nodup (h : Traced P given) : ((entriesOf given).map Prod.fst).Nodup := by
  obtain ⟨value, span⟩ := given
  rcases h with h | ⟨dateTime, htext, -⟩
  · cases value with
    | table table => exact h.toTable.nodup
    | dateTime dateTime => exact List.nodup_singleton _
    | _ => exact List.nodup_nil
  · dsimp only at htext
    subst htext
    exact List.nodup_nil

/-- Where the fields of a table are read one by one, and one of them decides about one part of the
result, that part is what this field is read as. -/
theorem part_of_foldlM {β : Type} {read : α → String × Keyed Value → Typed α} {part : α → β}
    {reader : Located Value → Typed β} {start result : α}
    (hself : ∀ {a b field}, read a (key, field) = .ok b → reader field.toLocated = .ok (part b))
    (hother : ∀ {a b other field}, other ≠ key → read a (other, field) = .ok b → part b = part a)
    (hkeys : (fields.map Prod.fst).Nodup) (h : fields.foldlM read start = .ok result) :
    (∀ field, fields.lookup key = some field → reader field.toLocated = .ok (part result)) ∧
      (fields.lookup key = none → part result = part start) := by
  induction fields generalizing start with
  | nil =>
    obtain rfl := Except.ok.inj h
    exact ⟨fun _ h ↦ (nomatch h), fun _ ↦ rfl⟩
  | cons entry fields ih =>
    obtain ⟨other, field⟩ := entry
    obtain ⟨hnot, hkeys⟩ := List.nodup_cons.1 hkeys
    rw [List.foldlM_cons, bind_eq_ok_iff] at h
    obtain ⟨next, hnext, h⟩ := h
    have hrest := ih hkeys h
    by_cases heq : other = key
    · subst heq
      have hpart := hrest.2 (Association.lookup_eq_none_iff_notMem.2 hnot)
      rw [List.lookup_cons_self, hpart]
      refine ⟨fun _ hfield ↦ ?_, fun hnone ↦ nomatch hnone⟩
      obtain rfl := Option.some.inj hfield
      exact hself hnext
    · rw [List.lookup_cons, beq_false_of_ne (Ne.symm heq), ← hother heq hnext]
      exact hrest

end PairedSource.Toml
