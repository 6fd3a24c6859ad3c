import Mathlib.Logic.Basic
import PairedSource.SourceText

namespace PairedSource

namespace Span

def IsWithin (span outer : Span) : Prop :=
  outer.offset ≤ span.offset ∧ span.stop ≤ outer.stop

def inner (span : Span) : Span :=
  ⟨span.offset + 1, span.length - 2⟩

end Span

namespace Text

section Lists

variable {α : Type} [BEq α] [LawfulBEq α] {needle l before after before' after' : List α}

theorem breakOn?_eq_none_iff :
    breakOn? needle l = none ↔ ∀ before after, before ++ needle ++ after ≠ l := by
  induction l with
  | nil =>
    simp only [breakOn?, List.isEmpty_iff]
    split <;> simp_all
  | cons a l ih =>
    simp only [breakOn?]
    split
    · rename_i hprefix
      obtain ⟨rest, hrest⟩ := List.isPrefixOf_iff_prefix.1 hprefix
      simp only [reduceCtorEq, false_iff]
      exact fun h ↦ h [] rest hrest
    · rename_i hprefix
      rw [Option.map_eq_none_iff, ih]
      constructor
      · intro h before after heq
        cases before with
        | nil => exact hprefix (List.isPrefixOf_iff_prefix.2 ⟨after, heq⟩)
        | cons b before => exact h before after (List.cons.inj heq).2
      · intro h before after heq
        exact h (a :: before) after (by rw [← heq]; rfl)

theorem length_le_of_breakOn? (h : breakOn? needle l = some (before, after))
    (h' : before' ++ needle ++ after' = l) : before.length ≤ before'.length := by
  induction l generalizing before before' after with
  | nil =>
    simp only [breakOn?] at h
    split at h
    · obtain ⟨rfl, -⟩ := Prod.mk.inj (Option.some.inj h)
      exact Nat.zero_le _
    · cases h
  | cons a l ih =>
    simp only [breakOn?] at h
    split at h
    · obtain ⟨rfl, -⟩ := Prod.mk.inj (Option.some.inj h)
      exact Nat.zero_le _
    · rename_i hprefix
      obtain ⟨⟨front, rest⟩, hfront, hpair⟩ := Option.map_eq_some_iff.1 h
      obtain ⟨rfl, -⟩ := Prod.mk.inj hpair
      cases before' with
      | nil => exact absurd (List.isPrefixOf_iff_prefix.2 ⟨after', h'⟩) hprefix
      | cons b before' => exact Nat.succ_le_succ (ih hfront (List.cons.inj h').2)

end Lists

variable {s cs ds front front' rest rest' : List Char} {span : Span} {text needle : String}
  {offset : Nat} {q : Char}

theorem byteLength_append (cs ds : List Char) :
    byteLength (cs ++ ds) = byteLength cs + byteLength ds := by
  induction cs with
  | nil => simp [byteLength]
  | cons c cs ih => simp [byteLength, ih, Nat.add_assoc]

theorem utf8ByteSize_ofList (cs : List Char) : (String.ofList cs).utf8ByteSize = byteLength cs := by
  induction cs with
  | nil => rfl
  | cons c cs ih =>
    rw [String.ofList_cons, String.utf8ByteSize_append, String.utf8ByteSize_singleton, ih]
    rfl

theorem byteLength_toList (text : String) : byteLength text.toList = text.utf8ByteSize := by
  rw [← utf8ByteSize_ofList, String.ofList_toList]

theorem byteLength_le_iff (h : front ++ rest = front' ++ rest') :
    byteLength front ≤ byteLength front' ↔ front.length ≤ front'.length := by
  induction front generalizing front' with
  | nil => simp [byteLength]
  | cons c front ih =>
    cases front' with
    | nil =>
      have hc := c.utf8Size_pos
      simp only [byteLength, List.length_cons, List.length_nil]
      omega
    | cons d front' =>
      obtain ⟨rfl, htail⟩ := List.cons.inj h
      simp only [byteLength, List.length_cons, Nat.add_le_add_iff_left, Nat.add_le_add_iff_right]
      exact ih htail

theorem eq_of_byteLength_eq (h : front ++ rest = front' ++ rest')
    (hlength : byteLength front = byteLength front') : front = front' ∧ rest = rest' := by
  have hle := (byteLength_le_iff h).1 (Nat.le_of_eq hlength)
  have hge := (byteLength_le_iff h.symm).1 (Nat.le_of_eq hlength.symm)
  exact List.append_inj h (Nat.le_antisymm hle hge)

def Occurs (s cs : List Char) (span : Span) : Prop :=
  ∃ before after, s = before ++ cs ++ after ∧ span = ⟨byteLength before, byteLength cs⟩

theorem Occurs.inner (h : Occurs s (q :: cs ++ [q]) span) (hq : q.utf8Size = 1) :
    Occurs s cs span.inner := by
  obtain ⟨before, after, hs, rfl⟩ := h
  refine ⟨before ++ [q], q :: after, by simp [hs], ?_⟩
  simp only [Span.inner, byteLength_append, byteLength, hq, List.cons_append]
  congr 1
  omega

theorem Occurs.eq_of_span_eq (h : Occurs s cs span) (h' : Occurs s ds span)
    (hlength : cs.length = ds.length) : cs = ds := by
  obtain ⟨before, after, hs, rfl⟩ := h
  obtain ⟨before', after', hs', hspan⟩ := h'
  rw [hs, List.append_assoc, List.append_assoc] at hs'
  obtain ⟨-, hrest⟩ := eq_of_byteLength_eq hs' (congrArg Span.offset hspan)
  exact (List.append_inj hrest hlength).1

theorem find?_eq_none_iff :
    find? needle text = none ↔ ∀ span, ¬Occurs text.toList needle.toList span := by
  rw [find?, Option.map_eq_none_iff, breakOn?_eq_none_iff]
  constructor
  · intro h span hoccurs
    obtain ⟨before, after, hs, -⟩ := hoccurs
    exact h before after hs.symm
  · intro h before after hs
    exact h _ ⟨before, after, hs.symm, rfl⟩

theorem find?_eq_some_iff : find? needle text = some offset ↔
    Occurs text.toList needle.toList ⟨offset, needle.utf8ByteSize⟩ ∧
      ∀ span, Occurs text.toList needle.toList span → offset ≤ span.offset := by
  have hfound : ∀ {offset}, find? needle text = some offset →
      Occurs text.toList needle.toList ⟨offset, needle.utf8ByteSize⟩ ∧
        ∀ span, Occurs text.toList needle.toList span → offset ≤ span.offset := by
    intro offset h
    obtain ⟨⟨before, after⟩, hbreak, rfl⟩ := Option.map_eq_some_iff.1 h
    have hs := append_of_breakOn? hbreak
    refine ⟨⟨before, after, hs.symm, by rw [byteLength_toList]⟩, fun span hspan ↦ ?_⟩
    obtain ⟨before', after', hs', rfl⟩ := hspan
    have hle := length_le_of_breakOn? hbreak hs'.symm
    rw [hs', List.append_assoc, List.append_assoc] at hs
    exact (byteLength_le_iff hs).2 hle
  constructor
  · exact hfound
  · intro h
    obtain ⟨hoccurs, hfirst⟩ := h
    cases hfind : find? needle text with
    | none => exact absurd hoccurs (find?_eq_none_iff.1 hfind _)
    | some offset' =>
      obtain ⟨hoccurs', hfirst'⟩ := hfound hfind
      exact congrArg some (Nat.le_antisymm (hfirst' _ hoccurs) (hfirst _ hoccurs'))

/-- Some characters between two quotes. -/
def between (quote : Char) (cs : List Char) : List Char :=
  quote :: cs ++ [quote]

theorem between_double (needle : String) :
    ("\"" ++ needle ++ "\"").toList = between '"' needle.toList := by
  simp [between]

theorem between_single (needle : String) :
    ("'" ++ needle ++ "'").toList = between '\'' needle.toList := by
  simp [between]

theorem byteLength_between (hq : q.utf8Size = 1) (cs : List Char) :
    byteLength (between q cs) = byteLength cs + 2 := by
  simp only [between, byteLength, byteLength_append, List.cons_append, hq]
  omega

theorem Occurs.length_eq (h : Occurs s cs span) : span.length = byteLength cs := by
  obtain ⟨before, after, -, rfl⟩ := h
  rfl

theorem find?_double_eq_some_iff : find? ("\"" ++ needle ++ "\"") text = some offset ↔
    Occurs text.toList (between '"' needle.toList) ⟨offset, needle.utf8ByteSize + 2⟩ ∧
      ∀ span, Occurs text.toList (between '"' needle.toList) span → offset ≤ span.offset := by
  rw [find?_eq_some_iff, ← byteLength_toList, between_double, byteLength_between (by decide),
    byteLength_toList]

theorem find?_single_eq_some_iff : find? ("'" ++ needle ++ "'") text = some offset ↔
    Occurs text.toList (between '\'' needle.toList) ⟨offset, needle.utf8ByteSize + 2⟩ ∧
      ∀ span, Occurs text.toList (between '\'' needle.toList) span → offset ≤ span.offset := by
  rw [find?_eq_some_iff, ← byteLength_toList, between_single, byteLength_between (by decide),
    byteLength_toList]

/-- A value is located at the first of its occurrences between double quotes, else at the first
between single quotes, else at the first of all. -/
theorem locate?_eq : locate? needle text =
    (((find? ("\"" ++ needle ++ "\"") text).or (find? ("'" ++ needle ++ "'") text)).map
      fun offset ↦ ⟨offset + 1, needle.utf8ByteSize⟩).or
        ((find? needle text).map fun offset ↦ ⟨offset, needle.utf8ByteSize⟩) := by
  unfold locate?
  cases find? ("\"" ++ needle ++ "\"") text with
  | some offset => rfl
  | none =>
    cases find? ("'" ++ needle ++ "'") text with
    | some offset => rfl
    | none => cases find? needle text <;> rfl

theorem occurs_of_locate? (h : locate? needle text = some span) :
    Occurs text.toList needle.toList span := by
  rw [locate?_eq, Option.or_eq_some_iff, Option.map_eq_some_iff] at h
  rcases h with ⟨offset, h, rfl⟩ | ⟨-, h⟩
  · rcases Option.or_eq_some_iff.1 h with h | ⟨-, h⟩
    · exact (find?_double_eq_some_iff.1 h).1.inner (by decide)
    · exact (find?_single_eq_some_iff.1 h).1.inner (by decide)
  · obtain ⟨offset, hfind, rfl⟩ := Option.map_eq_some_iff.1 h
    exact (find?_eq_some_iff.1 hfind).1

theorem locate?_eq_none_iff :
    locate? needle text = none ↔ ∀ span, ¬Occurs text.toList needle.toList span := by
  constructor
  · intro h
    rw [locate?_eq, Option.or_eq_none_iff, Option.map_eq_none_iff, Option.map_eq_none_iff] at h
    exact find?_eq_none_iff.1 h.2
  · intro h
    cases hlocate : locate? needle text with
    | none => rfl
    | some span => exact absurd (occurs_of_locate? hlocate) (h span)

theorem some_eq_inner_iff {n : Nat} (hlength : span.length = n + 2) :
    some (⟨offset + 1, n⟩ : Span) = some span.inner ↔ offset = span.offset := by
  simp [Span.inner, hlength]

theorem locate?_eq_inner_iff_of_double (h : Occurs text.toList (between '"' needle.toList) span) :
    locate? needle text = some span.inner ↔ ∀ other,
      Occurs text.toList (between '"' needle.toList) other → span.offset ≤ other.offset := by
  have hlength := h.length_eq
  rw [byteLength_between (by decide), byteLength_toList] at hlength
  cases hfind : find? ("\"" ++ needle ++ "\"") text with
  | none =>
    rw [find?_eq_none_iff, between_double] at hfind
    exact absurd h (hfind span)
  | some offset =>
    obtain ⟨hoccurs, hfirst⟩ := find?_double_eq_some_iff.1 hfind
    have hlocate : locate? needle text = some ⟨offset + 1, needle.utf8ByteSize⟩ := by
      rw [locate?_eq, hfind]
      rfl
    rw [hlocate, some_eq_inner_iff hlength]
    constructor
    · rintro rfl
      exact hfirst
    · exact fun hmin ↦ Nat.le_antisymm (hfirst span h) (hmin _ hoccurs)

theorem locate?_eq_inner_iff_of_single (h : Occurs text.toList (between '\'' needle.toList) span) :
    locate? needle text = some span.inner ↔
      (∀ other, ¬Occurs text.toList (between '"' needle.toList) other) ∧
      ∀ other, Occurs text.toList (between '\'' needle.toList) other →
        span.offset ≤ other.offset := by
  have hlength := h.length_eq
  rw [byteLength_between (by decide), byteLength_toList] at hlength
  cases hdouble : find? ("\"" ++ needle ++ "\"") text with
  | some offset =>
    obtain ⟨hoccurs, -⟩ := find?_double_eq_some_iff.1 hdouble
    have hlocate : locate? needle text = some ⟨offset + 1, needle.utf8ByteSize⟩ := by
      rw [locate?_eq, hdouble]
      rfl
    rw [hlocate, some_eq_inner_iff hlength]
    constructor
    · rintro rfl
      -- No place has both kinds of quotes.
      rw [← hlength] at hoccurs
      cases (List.cons.inj (hoccurs.eq_of_span_eq h (by simp [between]))).1
    · exact fun hnone ↦ absurd hoccurs (hnone.1 _)
  | none =>
    have hnone := find?_eq_none_iff.1 hdouble
    rw [between_double] at hnone
    cases hfind : find? ("'" ++ needle ++ "'") text with
    | none =>
      rw [find?_eq_none_iff, between_single] at hfind
      exact absurd h (hfind span)
    | some offset =>
      obtain ⟨hoccurs, hfirst⟩ := find?_single_eq_some_iff.1 hfind
      have hlocate : locate? needle text = some ⟨offset + 1, needle.utf8ByteSize⟩ := by
        rw [locate?_eq, hdouble, hfind]
        rfl
      rw [hlocate, some_eq_inner_iff hlength]
      constructor
      · rintro rfl
        exact ⟨hnone, hfirst⟩
      · exact fun hmin ↦ Nat.le_antisymm (hfirst span h) (hmin.2 _ hoccurs)

end Text

end PairedSource
