import Mathlib.Data.String.Basic
import PairedSource.Proofs.Text.Search

namespace PairedSource.Text

variable {s cs : List Char} {text needle : String} {span : Span} {q : Char}

variable (s cs span) in
def IsFirst : Prop :=
  Occurs s cs span ∧ ∀ other, Occurs s cs other → span.offset ≤ other.offset

variable (text needle span) in
/-- A stretch of bytes lies in a text, splits none of its characters, and is the bytes of another
text. -/
structure Selects : Prop where
  stop_le : span.stop ≤ text.utf8ByteSize
  isValid_offset : (⟨span.offset⟩ : String.Pos.Raw).IsValid text
  isValid_stop : (⟨span.stop⟩ : String.Pos.Raw).IsValid text
  extract_eq : String.Pos.Raw.extract text ⟨span.offset⟩ ⟨span.stop⟩ = needle

theorem exists_occurs_iff : (∃ span, Occurs s cs span) ↔ cs <:+: s := by
  constructor
  · rintro ⟨_, before, after, rfl, -⟩
    exact ⟨before, after, rfl⟩
  · rintro ⟨before, after, rfl⟩
    exact ⟨_, before, after, rfl, rfl⟩

theorem not_infix_iff : ¬cs <:+: s ↔ ∀ span, ¬Occurs s cs span := by
  rw [← exists_occurs_iff, not_exists]

theorem isValid_byteLength (front rest : List Char) :
    (⟨byteLength front⟩ : String.Pos.Raw).IsValid (String.ofList (front ++ rest)) := by
  rw [String.Pos.Raw.isValid_iff_exists_append]
  refine ⟨String.ofList front, String.ofList rest, String.ofList_append, ?_⟩
  rw [String.rawEndPos, utf8ByteSize_ofList]

theorem extract_of_append (before cs after : List Char) :
    String.Pos.Raw.extract (String.ofList (before ++ cs ++ after)) ⟨byteLength before⟩
      ⟨byteLength before + byteLength cs⟩ = String.ofList cs := by
  rw [← utf8ByteSize_ofList, ← utf8ByteSize_ofList, String.utf8ByteSize_ofList,
    String.utf8ByteSize_ofList]
  exact String.extract_of_valid before cs after

theorem Occurs.selects (h : Occurs text.toList needle.toList span) : Selects text needle span := by
  obtain ⟨before, after, htext, rfl⟩ := h
  obtain rfl : text = String.ofList (before ++ needle.toList ++ after) := by
    rw [← htext, String.ofList_toList]
  refine ⟨?_, ?_, ?_, ?_⟩
  · rw [Span.stop, utf8ByteSize_ofList, byteLength_append, byteLength_append]
    exact Nat.le_add_right _ _
  · rw [List.append_assoc]
    exact isValid_byteLength _ _
  · rw [Span.stop, ← byteLength_append]
    exact isValid_byteLength _ _
  · rw [Span.stop, extract_of_append, String.ofList_toList]

theorem map_find?_eq_some_iff {pattern : String}
    (hpattern : pattern.toList = between q needle.toList) (hq : q.utf8Size = 1) :
    (find? pattern text).map (fun offset ↦ (⟨offset + 1, needle.utf8ByteSize⟩ : Span)) = some span ↔
      ∃ quoted, IsFirst text.toList (between q needle.toList) quoted ∧ span = quoted.inner := by
  have hsize : pattern.utf8ByteSize = needle.utf8ByteSize + 2 := by
    rw [← byteLength_toList, hpattern, byteLength_between hq, byteLength_toList]
  simp only [Option.map_eq_some_iff, find?_eq_some_iff, hpattern, hsize]
  constructor
  · rintro ⟨offset, hfirst, rfl⟩
    exact ⟨_, hfirst, rfl⟩
  · rintro ⟨⟨offset, length⟩, hfirst, rfl⟩
    have hlength : length = needle.utf8ByteSize + 2 := by
      rw [← byteLength_toList, ← byteLength_between hq]
      exact hfirst.1.length_eq
    subst hlength
    exact ⟨offset, hfirst, rfl⟩

theorem map_find?_self_eq_some_iff :
    (find? needle text).map (fun offset ↦ (⟨offset, needle.utf8ByteSize⟩ : Span)) = some span ↔
      IsFirst text.toList needle.toList span := by
  simp only [Option.map_eq_some_iff, find?_eq_some_iff]
  constructor
  · rintro ⟨offset, hfirst, rfl⟩
    exact hfirst
  · intro hfirst
    have hlength := hfirst.1.length_eq
    rw [byteLength_toList] at hlength
    refine ⟨span.offset, ?_, by rw [← hlength]⟩
    rw [← hlength]
    exact hfirst

variable (text needle span) in
/-- The place of a value: the first between double quotes, else the first between single quotes,
else the first of all. -/
inductive IsPlace : Prop where
  | double (quoted : Span) (first : IsFirst text.toList (between '"' needle.toList) quoted)
      (inner : span = quoted.inner)
  | single (noDouble : ¬between '"' needle.toList <:+: text.toList) (quoted : Span)
      (first : IsFirst text.toList (between '\'' needle.toList) quoted)
      (inner : span = quoted.inner)
  | bare (noDouble : ¬between '"' needle.toList <:+: text.toList)
      (noSingle : ¬between '\'' needle.toList <:+: text.toList)
      (first : IsFirst text.toList needle.toList span)

theorem locate?_eq_some_iff : locate? needle text = some span ↔ IsPlace text needle span := by
  rw [locate?_eq, Option.map_or, Option.or_eq_some_iff, Option.or_eq_some_iff,
    Option.or_eq_none_iff, map_find?_eq_some_iff (between_double needle) (by decide),
    map_find?_eq_some_iff (between_single needle) (by decide), map_find?_self_eq_some_iff,
    Option.map_eq_none_iff, Option.map_eq_none_iff, find?_eq_none_iff, find?_eq_none_iff,
    between_double, between_single, ← not_infix_iff, ← not_infix_iff]
  constructor
  · rintro ((⟨quoted, hfirst, hinner⟩ | ⟨hnone, quoted, hfirst, hinner⟩) | ⟨hnone, hfirst⟩)
    · exact .double quoted hfirst hinner
    · exact .single hnone quoted hfirst hinner
    · exact .bare hnone.1 hnone.2 hfirst
  · rintro (⟨quoted, hfirst, hinner⟩ | ⟨hnone, quoted, hfirst, hinner⟩ | ⟨hdouble, hsingle, hfirst⟩)
    · exact .inl (.inl ⟨quoted, hfirst, hinner⟩)
    · exact .inl (.inr ⟨hnone, quoted, hfirst, hinner⟩)
    · exact .inr ⟨⟨hdouble, hsingle⟩, hfirst⟩

variable (text needle) in
/-- A value is located exactly where it occurs in a text at all, at its place and with its own
bytes. -/
theorem locate?_selects :
    (locate? needle text = none ↔ ¬needle.toList <:+: text.toList) ∧
    ∀ span, (locate? needle text = some span ↔ IsPlace text needle span) ∧
      (locate? needle text = some span → Selects text needle span) := by
  refine ⟨?_, fun span ↦ ⟨locate?_eq_some_iff, fun h ↦ (occurs_of_locate? h).selects⟩⟩
  rw [locate?_eq_none_iff, not_infix_iff]

/-- The quoted one of two places, behind characters of two bytes. -/
theorem locate?_selects_accented :
    locate? "é" "é = 'é'\n" = some ⟨6, 2⟩ ∧ Selects "é = 'é'\n" "é" ⟨6, 2⟩ := by
  have h : locate? "é" "é = 'é'\n" = some ⟨6, 2⟩ := by decide
  exact ⟨h, ((locate?_selects "é = 'é'\n" "é").2 ⟨6, 2⟩).2 h⟩

example : locate? "" "a = ''" = some ⟨5, 0⟩ := by decide

end PairedSource.Text
