import PairedSource.ObjectiveC.Renderer
import PairedSource.Proofs.ObjectiveC.Literal

namespace PairedSource.ObjectiveC

namespace Literal

def short? : Char → Option Char
  | '"' => some '"'
  | '\\' => some '\\'
  | 'n' => some '\n'
  | 'r' => some '\r'
  | 't' => some '\t'
  | _ => none

def isOctalDigit (c : Char) : Bool :=
  '0' ≤ c && c ≤ '7'

def octalDigits (s : List Char) : List Char :=
  (s.take 3).takeWhile isOctalDigit

def octalValue (digits : List Char) : Nat :=
  digits.foldl (fun n c ↦ 8 * n + (c.toNat - '0'.toNat)) 0

/-- The byte of an octal escape sequence from behind its backslash, and what follows. -/
def readOctal? (s : List Char) : Option (List UInt8 × List Char) :=
  if octalDigits s ≠ [] ∧ octalValue (octalDigits s) < 256 then
    some ([.ofNat (octalValue (octalDigits s))], s.drop (octalDigits s).length)
  else none

def readEscape? : List Char → Option (List UInt8 × List Char)
  | [] => none
  | c :: rest =>
    match short? c with
    | some d => some (String.utf8EncodeChar d, rest)
    | none => readOctal? (c :: rest)

/-- The bytes that the first character of a literal or its first escape sequence stands for, and
what follows. -/
def readChar? : List Char → Option (List UInt8 × List Char)
  | [] => none
  | '\\' :: rest => readEscape? rest
  | c :: rest => some (String.utf8EncodeChar c, rest)

variable {s rest : List Char} {bytes : List UInt8} {c d : Char} {byte : UInt8}
  {value other : String}

theorem length_lt_of_readOctal? (h : readOctal? s = some (bytes, rest)) :
    rest.length < s.length := by
  unfold readOctal? at h
  split at h
  · rename_i hdigits
    obtain ⟨-, rfl⟩ := Prod.mk.inj (Option.some.inj h)
    have hs : s ≠ [] := by
      rintro rfl
      exact hdigits.1 rfl
    have hpos := List.length_pos_iff.2 hdigits.1
    have hlength := List.length_pos_iff.2 hs
    rw [List.length_drop]
    omega
  · cases h

theorem length_lt_of_readEscape? (h : readEscape? s = some (bytes, rest)) :
    rest.length < s.length := by
  unfold readEscape? at h
  split at h
  · cases h
  · split at h
    · obtain ⟨-, rfl⟩ := Prod.mk.inj (Option.some.inj h)
      exact Nat.lt_succ_self _
    · exact length_lt_of_readOctal? h

theorem length_lt_of_readChar? (h : readChar? s = some (bytes, rest)) :
    rest.length < s.length := by
  unfold readChar? at h
  split at h
  · cases h
  · exact Nat.lt_succ_of_lt (length_lt_of_readEscape? h)
  · obtain ⟨-, rfl⟩ := Prod.mk.inj (Option.some.inj h)
    exact Nat.lt_succ_self _

/-- Reads a string literal from behind its opening quote: the bytes up to the first quote that no
backslash escapes, and what follows that quote. -/
def read? (s : List Char) : Option (List UInt8 × List Char) :=
  if s.head? = some '"' then some ([], s.tail)
  else
    match _h : readChar? s with
    | none => none
    | some (bytes, rest) => (read? rest).map (Prod.map (bytes ++ ·) id)
termination_by s.length
decreasing_by exact length_lt_of_readChar? ‹_›

def hasBareQuote : List Char → Bool
  | [] => false
  | '\\' :: _ :: rest => hasBareQuote rest
  | c :: rest => c == '"' || hasBareQuote rest

theorem read?_quote (rest : List Char) : read? ('"' :: rest) = some ([], rest) := by
  rw [read?]
  rfl

theorem read?_of_readChar? (hs : s.head? ≠ some '"') (h : readChar? s = some (bytes, rest)) :
    read? s = (read? rest).map (Prod.map (bytes ++ ·) id) := by
  rw [read?, if_neg hs]
  split
  · rename_i hnone
    rw [h] at hnone
    cases hnone
  · rename_i hsome
    obtain ⟨rfl, rfl⟩ := Prod.mk.inj (Option.some.inj (h.symm.trans hsome))
    rfl

section Octal

theorem short?_of_isOctalDigit (h : isOctalDigit c = true) : short? c = none := by
  unfold short?
  split
  · cases h
  · cases h
  · cases h
  · cases h
  · cases h
  · rfl

theorem octal_eq (byte : UInt8) : ∃ a b c, octal byte = ['\\', a, b, c] ∧
    (∀ d ∈ [a, b, c], isOctalDigit d = true) ∧ octalValue [a, b, c] = byte.toNat := by
  have hdigit : ∀ n < 8, isOctalDigit (Char.ofNat ('0'.toNat + n)) = true ∧
      (Char.ofNat ('0'.toNat + n)).toNat - '0'.toNat = n := by decide
  have hmod (n : Nat) := hdigit (n % 8) (Nat.mod_lt n (by decide))
  refine ⟨_, _, _, rfl, ?_, ?_⟩
  · simp only [List.forall_mem_cons]
    exact ⟨(hmod _).1, (hmod _).1, (hmod _).1, nofun⟩
  · have hlt := byte.toNat_lt
    simp only [octalValue, List.foldl_cons, List.foldl_nil, (hmod _).2]
    omega

/-- All three digits of an octal form are taken, and no digit that follows them. -/
theorem readChar?_octal (byte : UInt8) (rest : List Char) :
    readChar? (octal byte ++ rest) = some ([byte], rest) := by
  obtain ⟨a, b, c, hoctal, hdigits, hvalue⟩ := octal_eq byte
  have htaken : octalDigits (a :: b :: c :: rest) = [a, b, c] := by
    have htake : (a :: b :: c :: rest).take 3 = [a, b, c] ++ [] := rfl
    rw [octalDigits, htake, List.takeWhile_append_of_pos hdigits]
    rfl
  have hread : readOctal? (a :: b :: c :: rest) = some ([byte], rest) := by
    rw [readOctal?, htaken, hvalue, if_pos ⟨List.cons_ne_nil _ _, byte.toNat_lt⟩, UInt8.ofNat_toNat]
    rfl
  rw [hoctal]
  simp only [List.cons_append, List.nil_append, readChar?, readEscape?,
    short?_of_isOctalDigit (hdigits a List.mem_cons_self), hread]

theorem read?_flatMap_octal (bytes : List UInt8) (rest : List Char) :
    read? (bytes.flatMap octal ++ rest) = (read? rest).map (Prod.map (bytes ++ ·) id) := by
  induction bytes with
  | nil =>
    rw [List.flatMap_nil, List.nil_append]
    cases read? rest <;> rfl
  | cons byte bytes ih =>
    rw [List.flatMap_cons, List.append_assoc,
      read?_of_readChar? (by simp [octal]) (readChar?_octal byte _), ih, Option.map_map]
    rfl

theorem hasBareQuote_octal (byte : UInt8) (rest : List Char) :
    hasBareQuote (octal byte ++ rest) = hasBareQuote rest := by
  have hplain (d : Char) (h : isOctalDigit d = true) (t : List Char) :
      hasBareQuote (d :: t) = hasBareQuote t := by
    have hquote : (d == '"') = false := by
      rw [beq_eq_false_iff_ne]
      rintro rfl
      cases h
    have hslash : d ≠ '\\' := by
      rintro rfl
      cases h
    simp [hasBareQuote, hquote, hslash]
  obtain ⟨a, b, c, hoctal, hdigits, -⟩ := octal_eq byte
  rw [hoctal, List.cons_append, List.cons_append, hasBareQuote, List.cons_append,
    hplain b (hdigits b (by simp)), List.cons_append, hplain c (hdigits c (by simp)),
    List.nil_append]

theorem hasBareQuote_flatMap_octal (bytes : List UInt8) (rest : List Char) :
    hasBareQuote (bytes.flatMap octal ++ rest) = hasBareQuote rest := by
  induction bytes with
  | nil => rfl
  | cons byte bytes ih =>
    rw [List.flatMap_cons, List.append_assoc, hasBareQuote_octal, ih]

end Octal

theorem escapeChar_cases (c : Char) :
    (∃ d, escapeChar c = ['\\', d] ∧ short? d = some c) ∨
    escapeChar c = (String.utf8EncodeChar c).flatMap octal ∨
    escapeChar c = [c] ∧ c ≠ '"' ∧ c ≠ '\\' := by
  unfold escapeChar
  split
  · exact .inl ⟨_, rfl, rfl⟩
  · exact .inl ⟨_, rfl, rfl⟩
  · exact .inl ⟨_, rfl, rfl⟩
  · exact .inl ⟨_, rfl, rfl⟩
  · exact .inl ⟨_, rfl, rfl⟩
  · rename_i hquote hslash _ _ _
    split
    · exact .inr (.inl rfl)
    · exact .inr (.inr ⟨rfl, hquote, hslash⟩)

theorem read?_escapeChar (c : Char) (rest : List Char) :
    read? (escapeChar c ++ rest) =
      (read? rest).map (Prod.map (String.utf8EncodeChar c ++ ·) id) := by
  rcases escapeChar_cases c with ⟨d, hc, hd⟩ | hc | ⟨hc, hquote, hslash⟩
  · rw [hc]
    refine read?_of_readChar? (by simp) ?_
    simp only [List.cons_append, List.nil_append, readChar?, readEscape?, hd]
  · rw [hc, read?_flatMap_octal]
  · rw [hc]
    refine read?_of_readChar? (by simpa using hquote) ?_
    simp [readChar?]

theorem hasBareQuote_escapeChar (c : Char) (rest : List Char) :
    hasBareQuote (escapeChar c ++ rest) = hasBareQuote rest := by
  rcases escapeChar_cases c with ⟨d, hc, -⟩ | hc | ⟨hc, hquote, hslash⟩
  · rw [hc]
    rfl
  · rw [hc, hasBareQuote_flatMap_octal]
  · rw [hc]
    simp [hasBareQuote, hquote, hslash]

theorem read?_escape (value : String) (after : List Char) :
    read? ((escape value).toList ++ '"' :: after) = some (value.toUTF8.data.toList, after) := by
  have hbytes : value.toUTF8.data.toList = value.toList.flatMap String.utf8EncodeChar := by
    rw [String.toUTF8, ← String.utf8Encode_toList, List.utf8Encode, List.data_toByteArray]
  rw [hbytes, escape, String.toList_ofList]
  induction value.toList with
  | nil => exact read?_quote after
  | cons c chars ih =>
    rw [List.flatMap_cons, List.append_assoc, read?_escapeChar, ih]
    rfl

theorem hasBareQuote_escape (value : String) : hasBareQuote (escape value).toList = false := by
  rw [escape, String.toList_ofList]
  induction value.toList with
  | nil => rfl
  | cons c chars ih => rw [List.flatMap_cons, hasBareQuote_escapeChar, ih]

theorem eq_of_read?_escape (h : escape value = escape other) : value = other := by
  have hread := read?_escape value []
  rw [h, read?_escape other [], Option.some_inj, Prod.mk.injEq] at hread
  have hdata : other.toUTF8.data = value.toUTF8.data := Array.toList_inj.1 hread.1
  exact (String.toByteArray_inj.1 (ByteArray.ext hdata)).symm

end Literal

open Literal

/-- The literal of a constant gives back its value byte for byte and ends where the renderer ended
it, whatever follows. It has no control characters and no quote of its own, and no other value has
the same literal. -/
theorem literal_inverts :
    (∀ (value : String) (after : List Char),
      read? ((escape value).toList ++ '"' :: after) = some (value.toUTF8.data.toList, after)) ∧
    (∀ value : String, hasBareQuote (escape value).toList = false ∧
      (∀ c ∈ (escape value).toList, isControl c = false) ∧ Text.IsLine (escape value)) ∧
    Function.Injective escape ∧
    ∀ (constant value : String) (unit : SourceUnit), ∃ text,
      (renderIdentifier constant value unit).definitions = unit.definitions ++ [.text text] ∧
      ∀ after : List Char, ∃ literal,
        text.toList ++ after = s!"NSString *const {constant} = @\"".toList ++ literal ∧
        read? literal = some (value.toUTF8.data.toList, ';' :: after) := by
  refine ⟨read?_escape, fun value ↦ ⟨hasBareQuote_escape value, fun c ↦ isControl_of_mem_escape,
    isLine_escape value⟩, fun value other ↦ eq_of_read?_escape, fun constant value unit ↦ ?_⟩
  refine ⟨_, rfl, fun after ↦ ⟨(escape value).toList ++ '"' :: ';' :: after, ?_, read?_escape _ _⟩⟩
  simp [toString]

end PairedSource.ObjectiveC
