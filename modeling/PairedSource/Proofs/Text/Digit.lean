import PairedSource.Proofs.Text.Blank
import PairedSource.Text.Digit

namespace PairedSource.Text

variable {c high low : Char} {n : Nat}

theorem of_range {p : Char → Prop} (hc : low ≤ c ∧ c ≤ high)
    (hall : ∀ k ∈ List.range' low.toNat (high.toNat + 1 - low.toNat), p (Char.ofNat k)) : p c := by
  have hlow : low.toNat ≤ c.toNat := UInt32.le_iff_toNat_le.1 hc.1
  have hhigh : c.toNat ≤ high.toNat := UInt32.le_iff_toNat_le.1 hc.2
  have h := hall c.toNat (by rw [List.mem_range'_1]; omega)
  rwa [Char.ofNat_toNat] at h

def hexDigits : List Char :=
  "0123456789abcdefABCDEF".toList

theorem of_mem_hexDigits {p : Char → Prop} [DecidablePred p] (h : c ∈ hexDigits)
    (hall : hexDigits.all (p ·) = true) : p c :=
  of_decide_eq_true (List.all_eq_true.1 hall c h)

/-- A digit in either case stands for a number. -/
def IsDigitOf (n : Nat) (c : Char) : Prop :=
  c = n.digitChar ∨ c = n.digitChar.toUpper

instance : Decidable (IsDigitOf n c) :=
  inferInstanceAs (Decidable (_ ∨ _))

theorem mem_hexDigits_iff : c ∈ hexDigits ↔ (hexDigit? c).isSome = true := by
  constructor
  · intro h
    exact of_mem_hexDigits (p := fun c ↦ (hexDigit? c).isSome = true) h (by decide)
  · intro h
    unfold hexDigit? at h
    split at h
    · rename_i hdigit
      simp only [Char.isDigit, Bool.and_eq_true, decide_eq_true_eq] at hdigit
      exact of_range hdigit (by decide)
    · split at h
      · rename_i hlower
        exact of_range hlower (by decide)
      · split at h
        · rename_i hupper
          exact of_range hupper (by decide)
        · cases h

theorem hexDigit?_eq_some_iff : hexDigit? c = some n ↔ n < 16 ∧ IsDigitOf n c := by
  constructor
  · intro h
    have hmem : c ∈ hexDigits := mem_hexDigits_iff.2 (by rw [h]; rfl)
    exact of_mem_hexDigits (p := fun c ↦ ∀ n ∈ hexDigit? c, n < 16 ∧ IsDigitOf n c) hmem
      (by decide) n h
  · intro ⟨hn, hc⟩
    have hall : ∀ n < 16, hexDigit? n.digitChar = some n ∧
        hexDigit? n.digitChar.toUpper = some n := by
      decide
    rcases hc with rfl | rfl
    · exact (hall n hn).1
    · exact (hall n hn).2

theorem isBlank_of_mem_hexDigits (h : c ∈ hexDigits) : isBlank c = false :=
  of_mem_hexDigits (p := fun c ↦ isBlank c = false) h (by decide)

theorem utf8Size_of_mem_hexDigits (h : c ∈ hexDigits) : c.utf8Size = 1 :=
  of_mem_hexDigits (p := fun c ↦ c.utf8Size = 1) h (by decide)

theorem toUpper_eq_or (c : Char) : c.toUpper = c ∨ 'a' ≤ c ∧ c ≤ 'z' := by
  by_cases h : 'a' ≤ c ∧ c ≤ 'z'
  · exact .inr h
  · left
    exact dif_neg h

/-- What does not tell the cases of a letter apart is the same for all characters in both. -/
theorem of_toUpper {α : Type} {f : Char → α}
    (hall : ∀ k ∈ List.range' 97 26, f (Char.ofNat k).toUpper = f (Char.ofNat k)) (c : Char) :
    f c.toUpper = f c := by
  rcases toUpper_eq_or c with h | h
  · rw [h]
  · exact of_range (p := fun c ↦ f c.toUpper = f c) h hall

theorem hexDigit?_toUpper (c : Char) : hexDigit? c.toUpper = hexDigit? c :=
  of_toUpper (by decide) c

theorem isBlank_toUpper (c : Char) : isBlank c.toUpper = isBlank c :=
  of_toUpper (by decide) c

end PairedSource.Text
