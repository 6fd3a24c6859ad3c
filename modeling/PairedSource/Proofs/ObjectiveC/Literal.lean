import PairedSource.ObjectiveC.Literal
import PairedSource.Proofs.Text.Lines

namespace PairedSource.ObjectiveC.Literal

variable {c d : Char} {byte : UInt8}

theorem isControl_of_mem_octal (h : c ∈ octal byte) : isControl c = false := by
  have hdigit : ∀ n < 8, isControl (Char.ofNat ('0'.toNat + n)) = false := by decide
  simp only [octal, List.mem_cons, List.not_mem_nil, or_false] at h
  rcases h with rfl | rfl | rfl | rfl
  · decide
  all_goals exact hdigit _ (Nat.mod_lt _ (by decide))

theorem isControl_of_mem_escapeChar (h : d ∈ escapeChar c) : isControl d = false := by
  have hpair : ∀ a b, isControl a = false → isControl b = false → d ∈ [a, b] →
      isControl d = false := by
    intro a b ha hb hd
    simp only [List.mem_cons, List.not_mem_nil, or_false] at hd
    rcases hd with rfl | rfl
    · exact ha
    · exact hb
  unfold escapeChar at h
  split at h
  · exact hpair _ _ rfl rfl h
  · exact hpair _ _ rfl rfl h
  · exact hpair _ _ rfl rfl h
  · exact hpair _ _ rfl rfl h
  · exact hpair _ _ rfl rfl h
  · split at h
    · obtain ⟨byte, -, hd⟩ := List.mem_flatMap.1 h
      exact isControl_of_mem_octal hd
    · rename_i hc
      obtain rfl := List.mem_singleton.1 h
      exact Bool.eq_false_iff.2 hc

theorem isControl_of_mem_escape {s : String} (h : c ∈ (escape s).toList) : isControl c = false := by
  rw [escape, String.toList_ofList, List.mem_flatMap] at h
  obtain ⟨_, -, hc⟩ := h
  exact isControl_of_mem_escapeChar hc

theorem isLine_escape (s : String) : Text.IsLine (escape s) := by
  intro c hc
  have hcontrol := isControl_of_mem_escape hc
  constructor
  · rintro rfl
    exact absurd hcontrol (by decide)
  · rintro rfl
    exact absurd hcontrol (by decide)

end PairedSource.ObjectiveC.Literal
