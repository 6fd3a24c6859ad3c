import PairedSource.Proofs.Except
import PairedSource.Proofs.Text.Search

namespace PairedSource.Text

open Except

/-- Why a stretch of bytes is no text: it leaves the text that it is taken from, or it has a part of
a character. -/
inductive SliceFault where
  | outOfRange
  | splitCharacter
  deriving Repr, DecidableEq

def cut : Nat → List Char → Except SliceFault (List Char × List Char)
  | 0, cs => .ok ([], cs)
  | _ + 1, [] => .error .outOfRange
  | n + 1, c :: cs =>
    if c.utf8Size ≤ n + 1 then
      (cut (n + 1 - c.utf8Size) cs).map fun (front, rest) ↦ (c :: front, rest)
    else .error .splitCharacter

def slice (cs : List Char) (span : Span) : Except SliceFault (List Char) := do
  let (_, rest) ← cut span.offset cs
  let (inside, _) ← cut span.length rest
  return inside

variable {cs front rest inside : List Char} {n : Nat} {span : Span}

theorem byteLength_eq_zero_iff : byteLength cs = 0 ↔ cs = [] := by
  cases cs with
  | nil => simp [byteLength]
  | cons c cs =>
    have hc := c.utf8Size_pos
    simp only [byteLength, reduceCtorEq, iff_false]
    omega

theorem cut_eq_ok_iff :
    cut n cs = .ok (front, rest) ↔ front ++ rest = cs ∧ byteLength front = n := by
  induction cs generalizing n front with
  | nil =>
    rw [List.append_eq_nil_iff]
    cases n with
    | zero =>
      rw [cut, byteLength_eq_zero_iff, Except.ok.injEq, Prod.mk.injEq]
      constructor
      · rintro ⟨rfl, rfl⟩
        exact ⟨⟨rfl, rfl⟩, rfl⟩
      · rintro ⟨⟨rfl, rfl⟩, -⟩
        exact ⟨rfl, rfl⟩
    | succ n =>
      rw [cut]
      constructor
      · exact nofun
      · rintro ⟨⟨rfl, -⟩, hlength⟩
        cases hlength
  | cons c cs ih =>
    cases n with
    | zero =>
      rw [cut, byteLength_eq_zero_iff, Except.ok.injEq, Prod.mk.injEq]
      constructor
      · rintro ⟨rfl, rfl⟩
        exact ⟨rfl, rfl⟩
      · rintro ⟨heq, rfl⟩
        exact ⟨rfl, heq.symm⟩
    | succ n =>
      rw [cut]
      constructor
      · intro h
        split at h
        · obtain ⟨⟨front', rest'⟩, hcut, heq⟩ := map_eq_ok_iff.1 h
          obtain ⟨rfl, rfl⟩ := Prod.mk.inj heq
          obtain ⟨rfl, hlength⟩ := ih.1 hcut
          refine ⟨rfl, ?_⟩
          rw [byteLength, hlength]
          omega
        · cases h
      · rintro ⟨heq, hlength⟩
        cases front with
        | nil => cases hlength
        | cons d front =>
          obtain ⟨rfl, htail⟩ := List.cons.inj heq
          rw [byteLength] at hlength
          have hcut : cut (n + 1 - d.utf8Size) cs = .ok (front, rest) := ih.2 ⟨htail, by omega⟩
          rw [if_pos (by omega), hcut]
          rfl

/-- There is a slice exactly where some characters stand. -/
theorem slice_eq_ok_iff : slice cs span = .ok inside ↔ Occurs cs inside span := by
  simp only [slice, bind_eq_ok_iff, Prod.exists, cut_eq_ok_iff]
  constructor
  · rintro ⟨front, rest, ⟨rfl, hfront⟩, inside', after, ⟨rfl, hinside⟩, heq⟩
    obtain rfl := Except.ok.inj heq
    exact ⟨front, after, by rw [List.append_assoc], by rw [hfront, hinside]⟩
  · rintro ⟨before, after, rfl, rfl⟩
    exact ⟨before, inside ++ after, ⟨by rw [List.append_assoc], rfl⟩, inside, after, ⟨rfl, rfl⟩,
      rfl⟩

example : slice "é#".toList ⟨1, 2⟩ = .error .splitCharacter := by decide

end PairedSource.Text
