import PairedSource.Color
import PairedSource.Proofs.Text.Digit
import PairedSource.Proofs.Text.Slice

namespace PairedSource

namespace Text

def IsPadded (s : String) (body : List Char) : Prop :=
  ∃ before after, s.toList = before ++ body ++ after ∧ (∀ c ∈ before, isBlank c = true) ∧
    ∀ c ∈ after, isBlank c = true

end Text

namespace Color

open Text

variable {s t : String} {color : Color} {channel : UInt8} {channels : List UInt8}
  {digits digits' : List Char} {c high low : Char}

def Writes (channels : List UInt8) (digits : List Char) : Prop :=
  List.Forall₂ IsDigitOf
    (channels.flatMap fun channel ↦ [channel.toNat / 16, channel.toNat % 16]) digits

/-- The digits of a colour: red, green, blue and alpha, which may be left out where it is 255. -/
def IsWrittenBy (color : Color) (digits : List Char) : Prop :=
  Writes [color.red, color.green, color.blue, color.alpha] digits ∨
    color.alpha = 255 ∧ Writes [color.red, color.green, color.blue] digits

theorem channel?_eq_some_iff : channel? high low = some channel ↔
    IsDigitOf (channel.toNat / 16) high ∧ IsDigitOf (channel.toNat % 16) low := by
  have hlt := channel.toNat_lt
  simp only [channel?, bind, Option.bind_eq_some_iff, hexDigit?_eq_some_iff, pure,
    Option.some.injEq]
  constructor
  · rintro ⟨h, ⟨hh, hhigh⟩, l, ⟨hl, hlow⟩, rfl⟩
    have hvalue : (UInt8.ofNat (16 * h + l)).toNat = 16 * h + l := by
      rw [UInt8.toNat_ofNat']
      omega
    have hdiv : (16 * h + l) / 16 = h := by omega
    have hmod : (16 * h + l) % 16 = l := by omega
    rw [hvalue, hdiv, hmod]
    exact ⟨hhigh, hlow⟩
  · rintro ⟨hhigh, hlow⟩
    refine ⟨_, ⟨by omega, hhigh⟩, _, ⟨by omega, hlow⟩, ?_⟩
    rw [Nat.div_add_mod, UInt8.ofNat_toNat]

theorem exists_channel?_iff :
    (∃ channel, channel? high low = some channel) ↔ high ∈ hexDigits ∧ low ∈ hexDigits := by
  rw [mem_hexDigits_iff, mem_hexDigits_iff, channel?]
  cases hexDigit? high <;> cases hexDigit? low <;> simp

theorem writes_nil_iff : Writes [] digits ↔ digits = [] :=
  List.forall₂_nil_left_iff

theorem writes_cons_iff : Writes (channel :: channels) digits ↔
    ∃ high low rest, channel? high low = some channel ∧ Writes channels rest ∧
      digits = high :: low :: rest := by
  simp only [Writes, List.flatMap_cons, List.cons_append, List.nil_append,
    List.forall₂_cons_left_iff, channel?_eq_some_iff]
  constructor
  · rintro ⟨high, _, hhigh, ⟨low, rest, hlow, hrest, rfl⟩, rfl⟩
    exact ⟨high, low, rest, ⟨hhigh, hlow⟩, hrest, rfl⟩
  · rintro ⟨high, low, rest, ⟨hhigh, hlow⟩, hrest, rfl⟩
    exact ⟨high, _, hhigh, ⟨low, rest, hlow, hrest, rfl⟩, rfl⟩

theorem exists_writes_iff {n : Nat} : (∃ channels, channels.length = n ∧ Writes channels digits) ↔
    digits.length = 2 * n ∧ ∀ d ∈ digits, d ∈ hexDigits := by
  induction n generalizing digits with
  | zero =>
    constructor
    · rintro ⟨channels, hlength, hwrites⟩
      rw [List.length_eq_zero_iff.1 hlength, writes_nil_iff] at hwrites
      rw [hwrites]
      exact ⟨rfl, nofun⟩
    · rintro ⟨hlength, -⟩
      exact ⟨[], rfl, writes_nil_iff.2 (List.length_eq_zero_iff.1 hlength)⟩
  | succ n ih =>
    constructor
    · rintro ⟨channels, hlength, hwrites⟩
      obtain ⟨channel, channels, rfl⟩ := List.exists_cons_of_length_eq_add_one hlength
      obtain ⟨high, low, rest, hchannel, hrest, rfl⟩ := writes_cons_iff.1 hwrites
      obtain ⟨hhigh, hlow⟩ := exists_channel?_iff.1 ⟨channel, hchannel⟩
      obtain ⟨hlength', hdigits⟩ := ih.1 ⟨channels, Nat.succ.inj hlength, hrest⟩
      refine ⟨by simp only [List.length_cons]; omega, ?_⟩
      simpa only [List.forall_mem_cons] using ⟨hhigh, hlow, hdigits⟩
    · rintro ⟨hlength, hdigits⟩
      match digits, hlength with
      | high :: low :: rest, hlength =>
        simp only [List.forall_mem_cons] at hdigits
        obtain ⟨channel, hchannel⟩ := exists_channel?_iff.2 ⟨hdigits.1, hdigits.2.1⟩
        obtain ⟨channels, hlength', hrest⟩ := ih.2
          ⟨by simp only [List.length_cons] at hlength; omega, hdigits.2.2⟩
        exact ⟨channel :: channels, congrArg (· + 1) hlength',
          writes_cons_iff.2 ⟨high, low, rest, hchannel, hrest, rfl⟩⟩

theorem exists_isWrittenBy_iff : (∃ color, IsWrittenBy color digits) ↔
    (digits.length = 6 ∨ digits.length = 8) ∧ ∀ d ∈ digits, d ∈ hexDigits := by
  constructor
  · rintro ⟨color, hwrites | ⟨-, hwrites⟩⟩
    · obtain ⟨hlength, hdigits⟩ := exists_writes_iff.1 ⟨_, rfl, hwrites⟩
      exact ⟨.inr hlength, hdigits⟩
    · obtain ⟨hlength, hdigits⟩ := exists_writes_iff.1 ⟨_, rfl, hwrites⟩
      exact ⟨.inl hlength, hdigits⟩
  · rintro ⟨hlength | hlength, hdigits⟩
    · have hwrites : ∃ channels, channels.length = 3 ∧ Writes channels digits :=
        exists_writes_iff.2 ⟨hlength, hdigits⟩
      obtain ⟨channels, hlength, hwrites⟩ := hwrites
      match channels, hlength with
      | [red, green, blue], _ => exact ⟨⟨red, green, blue, 255⟩, .inr ⟨rfl, hwrites⟩⟩
    · have hwrites : ∃ channels, channels.length = 4 ∧ Writes channels digits :=
        exists_writes_iff.2 ⟨hlength, hdigits⟩
      obtain ⟨channels, hlength, hwrites⟩ := hwrites
      match channels, hlength with
      | [red, green, blue, alpha], _ => exact ⟨⟨red, green, blue, alpha⟩, .inl hwrites⟩

theorem read?_eq_some_iff : read? s = some color ↔
    ∃ digits, dropAround isBlank s.toList = '#' :: digits ∧ IsWrittenBy color digits := by
  simp only [IsWrittenBy, writes_cons_iff, writes_nil_iff]
  constructor
  · intro h
    unfold read? at h
    split at h
    · rename_i hbody
      simp only [bind, Option.bind_eq_some_iff, pure, Option.some.injEq] at h
      obtain ⟨red, hred, green, hgreen, blue, hblue, rfl⟩ := h
      exact ⟨_, hbody, .inr ⟨rfl, _, _, _, hred, ⟨_, _, _, hgreen, ⟨_, _, _, hblue, rfl, rfl⟩, rfl⟩,
        rfl⟩⟩
    · rename_i hbody
      simp only [bind, Option.bind_eq_some_iff, pure, Option.some.injEq] at h
      obtain ⟨red, hred, green, hgreen, blue, hblue, alpha, halpha, rfl⟩ := h
      exact ⟨_, hbody, .inl ⟨_, _, _, hred, ⟨_, _, _, hgreen, ⟨_, _, _, hblue,
        ⟨_, _, _, halpha, rfl, rfl⟩, rfl⟩, rfl⟩, rfl⟩⟩
    · cases h
  · rintro ⟨digits, hbody, hwritten⟩
    rw [read?, hbody]
    obtain ⟨red, green, blue, alpha⟩ := color
    rcases hwritten with ⟨r₁, r₂, _, hred, ⟨g₁, g₂, _, hgreen, ⟨b₁, b₂, _, hblue,
        ⟨a₁, a₂, _, halpha, rfl, rfl⟩, rfl⟩, rfl⟩, rfl⟩ |
      ⟨rfl, r₁, r₂, _, hred, ⟨g₁, g₂, _, hgreen, ⟨b₁, b₂, _, hblue, rfl, rfl⟩, rfl⟩, rfl⟩
    · simp only [hred, hgreen, hblue, halpha]
      rfl
    · simp only [hred, hgreen, hblue]
      rfl

theorem isBlank_hash : isBlank '#' = false := by decide

theorem dropAround_eq_iff (h : ∀ d ∈ digits, d ∈ hexDigits) :
    dropAround isBlank s.toList = '#' :: digits ↔ IsPadded s ('#' :: digits) := by
  constructor
  · intro hbody
    obtain ⟨before, after, hs, hbefore, hafter⟩ := exists_eq_dropAround isBlank s.toList
    rw [hbody] at hs
    exact ⟨before, after, hs, hbefore, hafter⟩
  · rintro ⟨before, after, hs, hbefore, hafter⟩
    rw [hs]
    refine dropAround_append hbefore hafter (List.cons_ne_nil _ _) ?_ fun c hc ↦ ?_
    · rintro _ ⟨⟩
      exact isBlank_hash
    · rcases List.mem_cons.1 (List.mem_of_getLast? hc) with rfl | hc
      · exact isBlank_hash
      · exact isBlank_of_mem_hexDigits (h c hc)

theorem read?_eq_some_iff_isPadded : read? s = some color ↔
    ∃ digits, IsPadded s ('#' :: digits) ∧ IsWrittenBy color digits := by
  rw [read?_eq_some_iff]
  refine exists_congr fun digits ↦ and_congr_left fun hwritten ↦ ?_
  exact dropAround_eq_iff (exists_isWrittenBy_iff.1 ⟨color, hwritten⟩).2

theorem exists_read?_iff : (∃ color, read? s = some color) ↔ ∃ digits,
    IsPadded s ('#' :: digits) ∧ (digits.length = 6 ∨ digits.length = 8) ∧
      ∀ d ∈ digits, d ∈ hexDigits := by
  simp only [read?_eq_some_iff_isPadded, ← exists_isWrittenBy_iff]
  rw [exists_comm]
  exact exists_congr fun digits ↦ exists_and_left

theorem hexDigit?_congr (h : high.toUpper = low.toUpper) : hexDigit? high = hexDigit? low := by
  rw [← hexDigit?_toUpper, h, hexDigit?_toUpper]

theorem Writes.congr (hsame : digits.map Char.toUpper = digits'.map Char.toUpper)
    (h : Writes channels digits) : Writes channels digits' := by
  induction channels generalizing digits digits' with
  | nil =>
    rw [writes_nil_iff] at h ⊢
    rw [h] at hsame
    exact List.map_eq_nil_iff.1 hsame.symm
  | cons channel channels ih =>
    obtain ⟨high, low, rest, hchannel, hrest, rfl⟩ := writes_cons_iff.1 h
    obtain ⟨high', digits', rfl, hhigh, hsame⟩ := List.map_eq_cons_iff.1 hsame.symm
    obtain ⟨low', rest', rfl, hlow, hsame⟩ := List.map_eq_cons_iff.1 hsame
    refine writes_cons_iff.2 ⟨high', low', rest', ?_, ih hsame.symm hrest, rfl⟩
    rw [channel?, hexDigit?_congr hhigh, hexDigit?_congr hlow]
    exact hchannel

theorem eq_hash_of_toUpper (h : c.toUpper = '#') : c = '#' := by
  rcases toUpper_eq_or c with hc | hc
  · rw [← hc, h]
  · exact absurd h (of_range (p := fun c ↦ c.toUpper ≠ '#') hc (by decide))

theorem read?_congr_some (hsame : s.toList.map Char.toUpper = t.toList.map Char.toUpper)
    (h : read? s = some color) : read? t = some color := by
  obtain ⟨digits, hbody, hwritten⟩ := read?_eq_some_iff.1 h
  have hdropped := congrArg (dropAround isBlank) hsame
  rw [dropAround_map isBlank_toUpper, dropAround_map isBlank_toUpper, hbody] at hdropped
  obtain ⟨hash, digits', hbody', hhash, hdigits⟩ := List.map_eq_cons_iff.1 hdropped.symm
  obtain rfl := eq_hash_of_toUpper hhash
  exact read?_eq_some_iff.2 ⟨digits', hbody', hwritten.imp (·.congr hdigits.symm)
    (And.imp_right (·.congr hdigits.symm))⟩

theorem read?_congr (hsame : s.toList.map Char.toUpper = t.toList.map Char.toUpper) :
    read? s = read? t :=
  Option.ext fun _ ↦ ⟨read?_congr_some hsame, read?_congr_some hsame.symm⟩

def byte? (digits : List Char) : Option UInt8 :=
  let digits := match digits with
    | '+' :: rest => rest
    | _ => digits
  if digits.isEmpty then none
  else ((number? 16 digits).filter (· < 256)).map UInt8.ofNat

def channelAt (hex : List Char) (offset : Nat) : OptionT (Except SliceFault) UInt8 :=
  OptionT.mk ((slice hex ⟨offset, 2⟩).map byte?)

def channelsOf (hex : List Char) : OptionT (Except SliceFault) Color := do
  let red ← channelAt hex 0
  let green ← channelAt hex 2
  let blue ← channelAt hex 4
  let alpha ← (if byteLength hex = 8 then channelAt hex 6 else pure 255)
  return { red, green, blue, alpha }

/-- Reads a colour by the bytes of its text, as long as these can be cut where they should. -/
def readBytes (s : String) : Except SliceFault (Option Color) :=
  match dropAround isBlank s.toList with
  | '#' :: hex =>
    if (byteLength hex = 6 ∨ byteLength hex = 8) ∧ hex.all hexDigits.contains then
      (channelsOf hex).run
    else .ok none
  | _ => .ok none

theorem all_hexDigits_iff : digits.all hexDigits.contains = true ↔ ∀ d ∈ digits, d ∈ hexDigits := by
  simp only [List.all_eq_true, List.contains_iff_mem]

theorem byteLength_of_hexDigits (h : ∀ d ∈ digits, d ∈ hexDigits) :
    byteLength digits = digits.length := by
  induction digits with
  | nil => rfl
  | cons d digits ih =>
    rw [List.forall_mem_cons] at h
    rw [byteLength, utf8Size_of_mem_hexDigits h.1, ih h.2, List.length_cons, Nat.add_comm]

theorem byte?_of_hexDigits (hhigh : high ∈ hexDigits) (hlow : low ∈ hexDigits) :
    byte? [high, low] = channel? high low := by
  have hsign : high ≠ '+' := by
    rintro rfl
    exact absurd hhigh (by decide)
  obtain ⟨h, hh⟩ := Option.isSome_iff_exists.1 (mem_hexDigits_iff.1 hhigh)
  obtain ⟨l, hl⟩ := Option.isSome_iff_exists.1 (mem_hexDigits_iff.1 hlow)
  have hlt := (hexDigit?_eq_some_iff.1 hh).1
  have hlt' := (hexDigit?_eq_some_iff.1 hl).1
  have hfits : 16 * h + l < 256 := by omega
  simp [byte?, hsign, number?, channel?, hh, hl, hlt, hlt', hfits, Option.filter]

theorem channelAt_eq {before after : List Char}
    (h : ∀ d ∈ before ++ high :: low :: after, d ∈ hexDigits) :
    channelAt (before ++ high :: low :: after) before.length =
      OptionT.mk (.ok (channel? high low)) := by
  simp only [List.forall_mem_append, List.forall_mem_cons] at h
  obtain ⟨hbefore, hhigh, hlow, -⟩ := h
  have hpair : ∀ d ∈ [high, low], d ∈ hexDigits := by simp [hhigh, hlow]
  have hslice : slice (before ++ high :: low :: after) ⟨before.length, 2⟩ = .ok [high, low] := by
    refine slice_eq_ok_iff.2 ⟨before, after, by simp, ?_⟩
    rw [byteLength_of_hexDigits hbefore, byteLength_of_hexDigits hpair]
    rfl
  rw [channelAt, hslice, ← byte?_of_hexDigits hhigh hlow]
  rfl

section Channels

variable {r₁ r₂ g₁ g₂ b₁ b₂ : Char} {rest : List Char}

theorem channelsOf_eq (h : ∀ d ∈ r₁ :: r₂ :: g₁ :: g₂ :: b₁ :: b₂ :: rest, d ∈ hexDigits) :
    channelsOf (r₁ :: r₂ :: g₁ :: g₂ :: b₁ :: b₂ :: rest) = do
      let red ← OptionT.mk (.ok (channel? r₁ r₂))
      let green ← OptionT.mk (.ok (channel? g₁ g₂))
      let blue ← OptionT.mk (.ok (channel? b₁ b₂))
      let alpha ← (if rest.length = 2 then
        channelAt (r₁ :: r₂ :: g₁ :: g₂ :: b₁ :: b₂ :: rest) 6 else pure 255)
      return { red, green, blue, alpha } := by
  have hred := @channelAt_eq _ _ [] _ h
  have hgreen := @channelAt_eq _ _ [r₁, r₂] _ h
  have hblue := @channelAt_eq _ _ [r₁, r₂, g₁, g₂] _ h
  simp only [List.nil_append, List.cons_append, List.length_nil, List.length_cons, Nat.reduceAdd]
    at hred hgreen hblue
  rw [channelsOf, hred, hgreen, hblue, byteLength_of_hexDigits h]
  simp only [List.length_cons, Nat.reduceEqDiff]

end Channels

theorem readBytes_of_hexDigits {hex : List Char} (hbody : dropAround isBlank s.toList = '#' :: hex)
    (hlength : hex.length = 6 ∨ hex.length = 8) (h : ∀ d ∈ hex, d ∈ hexDigits) :
    readBytes s = .ok (read? s) := by
  have hbytes : byteLength hex = 6 ∨ byteLength hex = 8 := by rwa [byteLength_of_hexDigits h]
  have hrun : readBytes s = (channelsOf hex).run := by
    rw [readBytes, hbody]
    exact if_pos ⟨hbytes, all_hexDigits_iff.2 h⟩
  rcases hlength with hlength | hlength
  · match hex, hlength with
    | [r₁, r₂, g₁, g₂, b₁, b₂], _ =>
      have hread : read? s = do
          return ⟨← channel? r₁ r₂, ← channel? g₁ g₂, ← channel? b₁ b₂, 255⟩ := by
        rw [read?, hbody]
        rfl
      rw [hrun, hread, channelsOf_eq h]
      cases channel? r₁ r₂ <;> cases channel? g₁ g₂ <;> cases channel? b₁ b₂ <;> rfl
  · match hex, hlength with
    | [r₁, r₂, g₁, g₂, b₁, b₂, a₁, a₂], _ =>
      have halpha := @channelAt_eq a₁ a₂ [r₁, r₂, g₁, g₂, b₁, b₂] [] h
      simp only [List.nil_append, List.cons_append, List.length_nil, List.length_cons,
        Nat.reduceAdd] at halpha
      have hread : read? s = do
          return ⟨← channel? r₁ r₂, ← channel? g₁ g₂, ← channel? b₁ b₂, ← channel? a₁ a₂⟩ := by
        rw [read?, hbody]
        rfl
      rw [hrun, hread, channelsOf_eq h, halpha]
      cases channel? r₁ r₂ <;> cases channel? g₁ g₂ <;> cases channel? b₁ b₂ <;>
        cases channel? a₁ a₂ <;> rfl

/-- The bytes of a text can always be cut as reading it by them asks for. -/
theorem readBytes_eq (s : String) : readBytes s = .ok (read? s) := by
  have hnone (h : ∀ digits, dropAround isBlank s.toList = '#' :: digits →
      ¬((digits.length = 6 ∨ digits.length = 8) ∧ ∀ d ∈ digits, d ∈ hexDigits)) :
      read? s = none := by
    rw [Option.eq_none_iff_forall_ne_some]
    intro color hread
    obtain ⟨digits, hbody, hwritten⟩ := read?_eq_some_iff.1 hread
    exact h digits hbody (exists_isWrittenBy_iff.1 ⟨color, hwritten⟩)
  by_cases hhash : ∃ hex, dropAround isBlank s.toList = '#' :: hex
  · obtain ⟨hex, hbody⟩ := hhash
    by_cases hgood : (byteLength hex = 6 ∨ byteLength hex = 8) ∧ hex.all hexDigits.contains = true
    · obtain ⟨hlength, hall⟩ := hgood
      have h := all_hexDigits_iff.1 hall
      rw [byteLength_of_hexDigits h] at hlength
      exact readBytes_of_hexDigits hbody hlength h
    · rw [hnone, readBytes, hbody]
      · exact if_neg hgood
      · intro digits hdigits
        obtain rfl := (List.cons.inj (hbody.symm.trans hdigits)).2
        rintro ⟨hlength, h⟩
        exact hgood ⟨by rwa [byteLength_of_hexDigits h], all_hexDigits_iff.2 h⟩
  · rw [hnone fun digits hdigits ↦ absurd ⟨digits, hdigits⟩ hhash, readBytes]
    split
    · rename_i hex hbody
      exact absurd ⟨hex, hbody⟩ hhash
    · rfl

def spelling (upper : Bool) (color : Color) : List Char :=
  '#' :: ([color.red, color.green, color.blue, color.alpha].flatMap fun channel ↦
    [channel.toNat / 16, channel.toNat % 16]).map fun n ↦
      if upper then n.digitChar.toUpper else n.digitChar

theorem read?_of_spelling {upper : Bool} (h : IsPadded s (spelling upper color)) :
    read? s = some color := by
  refine read?_eq_some_iff_isPadded.2 ⟨_, h, .inl ?_⟩
  rw [Writes, List.forall₂_map_right_iff, List.forall₂_same]
  intro n _
  cases upper with
  | false => exact .inl rfl
  | true => exact .inr rfl

/-- A colour is read from `#` and six or eight digits with nothing but white space around them, and
from nothing else, by bytes as well as by characters. The digits are those of red, green, blue and
alpha, in either case. -/
theorem read?_exact (s : String) :
    readBytes s = .ok (read? s) ∧
    ((∃ color, read? s = some color) ↔ ∃ digits, IsPadded s ('#' :: digits) ∧
      (digits.length = 6 ∨ digits.length = 8) ∧ ∀ d ∈ digits, d ∈ hexDigits) ∧
    (∀ color, read? s = some color ↔
      ∃ digits, IsPadded s ('#' :: digits) ∧ IsWrittenBy color digits) ∧
    (∀ t : String, s.toList.map Char.toUpper = t.toList.map Char.toUpper → read? s = read? t) ∧
    ∀ (upper : Bool) (color : Color), IsPadded s (spelling upper color) → read? s = some color :=
  ⟨readBytes_eq s, exists_read?_iff, fun _ ↦ read?_eq_some_iff_isPadded, fun _ ↦ read?_congr,
    fun _ _ ↦ read?_of_spelling⟩

theorem read?_exact_orange :
    IsPadded "\u2003#ff880080\n" (spelling false ⟨255, 136, 0, 128⟩) ∧
      read? "\u2003#ff880080\n" = some ⟨255, 136, 0, 128⟩ ∧
      read? "\u2003#FF880080\n" = some ⟨255, 136, 0, 128⟩ := by
  have hpadded : IsPadded "\u2003#ff880080\n" (spelling false ⟨255, 136, 0, 128⟩) :=
    ⟨['\u2003'], ['\n'], by decide, List.forall_mem_singleton.2 (by decide),
      List.forall_mem_singleton.2 (by decide)⟩
  obtain ⟨-, -, -, hcase, hspelling⟩ := read?_exact "\u2003#ff880080\n"
  have hread := hspelling false ⟨255, 136, 0, 128⟩ hpadded
  refine ⟨hpadded, hread, ?_⟩
  rw [← hread, hcase "\u2003#FF880080\n" (by decide)]

/-- Two characters have as many bytes as the digits of a colour, and a sign would be taken for a
part of a number. -/
example : read? "#€€" = none ∧ byte? ['+', '8'] = some 8 ∧ read? "#+8+8+8" = none := by decide

end Color

end PairedSource
