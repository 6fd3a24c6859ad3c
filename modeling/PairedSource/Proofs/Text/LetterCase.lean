import PairedSource.Text.LetterCase

namespace PairedSource.Text

variable {c : Char}

theorem toNat_lt_of_isAlphanum (h : c.isAlphanum = true) : c.toNat < 128 := by
  have hle : ∀ d : Char, d.toNat < 128 → c.val ≤ d.val → c.toNat < 128 :=
    fun _ hd h ↦ Nat.lt_of_le_of_lt (UInt32.le_iff_toNat_le.1 h) hd
  have hcases : c.isAlphanum = ((c.isUpper || c.isLower) || c.isDigit) := rfl
  rw [hcases, Bool.or_eq_true, Bool.or_eq_true] at h
  rcases h with (h | h) | h
  · exact hle 'Z' (by decide) (of_decide_eq_true h).2
  · exact hle 'z' (by decide) (of_decide_eq_true (Bool.and_eq_true_iff.1 h).2)
  · exact hle '9' (by decide) (of_decide_eq_true (Bool.and_eq_true_iff.1 h).2)

/-- What a letter or digit becomes in upper and in lower case, checked for each. -/
theorem letterCase (h : c.isAlphanum = true) :
    c.toUpper.isAlphanum = true ∧ c.toLower.isAlphanum = true ∧ c.toUpper.toUpper = c.toUpper ∧
    (c.toLower.isDigit = false → c.toLower.isLower = true) ∧
    (c.isLower = true → c.toUpper.isUpper = true ∧ c.toUpper.toLower = c) := by
  have hall : ∀ n < 128, (Char.ofNat n).isAlphanum = true →
      (Char.ofNat n).toUpper.isAlphanum = true ∧ (Char.ofNat n).toLower.isAlphanum = true ∧
      (Char.ofNat n).toUpper.toUpper = (Char.ofNat n).toUpper ∧
      ((Char.ofNat n).toLower.isDigit = false → (Char.ofNat n).toLower.isLower = true) ∧
      ((Char.ofNat n).isLower = true → (Char.ofNat n).toUpper.isUpper = true ∧
        (Char.ofNat n).toUpper.toLower = Char.ofNat n) := by decide +kernel
  have hc := hall c.toNat (toNat_lt_of_isAlphanum h)
  rw [Char.ofNat_toNat] at hc
  exact hc h

theorem isAlphanum_toUpper (h : c.isAlphanum = true) : c.toUpper.isAlphanum = true :=
  (letterCase h).1

theorem isAlphanum_toLower (h : c.isAlphanum = true) : c.toLower.isAlphanum = true :=
  (letterCase h).2.1

theorem isLower_toLower (h : c.isAlphanum = true) (hdigit : c.toLower.isDigit = false) :
    c.toLower.isLower = true :=
  (letterCase h).2.2.2.1 hdigit

theorem isAlpha_of_isLower (h : c.isLower = true) : c.isAlpha = true :=
  Bool.or_eq_true_iff.2 (.inr h)

theorem isAlphanum_of_isLower (h : c.isLower = true) : c.isAlphanum = true :=
  Bool.or_eq_true_iff.2 (.inl (isAlpha_of_isLower h))

theorem isUpper_toUpper (h : c.isLower = true) : c.toUpper.isUpper = true :=
  ((letterCase (isAlphanum_of_isLower h)).2.2.2.2 h).1

theorem toUpper_toUpper (h : c.isAlphanum = true) : c.toUpper.toUpper = c.toUpper :=
  (letterCase h).2.2.1

theorem toLower_toUpper (h : c.isLower = true) : c.toUpper.toLower = c :=
  ((letterCase (isAlphanum_of_isLower h)).2.2.2.2 h).2

theorem isAlphanum_of_mem_toUpper (h : c.isAlphanum = true) {d : Char} (hd : d ∈ toUpper c) :
    d.isAlphanum = true := by
  rw [toUpper, if_pos (toNat_lt_of_isAlphanum h), List.mem_singleton] at hd
  exact hd ▸ isAlphanum_toUpper h

theorem isAlphanum_of_mem_upperFirst {s : String} (h : ∀ d ∈ s.toList, d.isAlphanum = true)
    (hc : c ∈ (upperFirst s).toList) : c.isAlphanum = true := by
  rw [upperFirst, String.toList_ofList] at hc
  cases hs : s.toList with
  | nil => simp [hs, mapFirst] at hc
  | cons d ds =>
    rw [hs, mapFirst, List.mem_append] at hc
    rcases hc with hc | hc
    · exact isAlphanum_of_mem_toUpper (h d (by simp [hs])) hc
    · exact h c (by simp [hs, hc])

theorem toList_upperFirst {s : String} {cs : List Char} (hs : s.toList = c :: cs)
    (hc : c.isAlphanum = true) : (upperFirst s).toList = c.toUpper :: cs := by
  rw [upperFirst, String.toList_ofList, hs, mapFirst, toUpper, if_pos (toNat_lt_of_isAlphanum hc),
    List.singleton_append]

theorem upperFirst_ne_empty {s : String} (h : ∀ d ∈ s.toList, d.isAlphanum = true) (hs : s ≠ "") :
    upperFirst s ≠ "" := by
  obtain ⟨d, ds, hd⟩ := List.exists_cons_of_ne_nil (l := s.toList) (by simpa using hs)
  rw [ne_eq, ← String.toList_inj, toList_upperFirst hd (h d (by simp [hd]))]
  simp

end PairedSource.Text
