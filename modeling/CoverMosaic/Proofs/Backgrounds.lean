import CoverMosaic.Options
import CoverMosaic.Proofs.Traversal
/-!
# Which texts name a background: `parse_color_code` and a `Background` displayed

A colour code is a number sign and three bytes of two characters each. The reader of a byte takes
two digits, but a plus sign in place of the first of them as well (`byte?_eq_some_iff`). So every
code of six digits is read, and of the codes that are read those of six digits are the ones without
a plus sign (`isCode_iff`).

The written form of a colour is its only code of six digits with letters of upper case
(`isUpperCode_iff`).

Main results `ofText_decides`, `ofCode?_plus_signs` for a code that has too few digits, and
`text_of_accepted`.
-/
namespace CoverMosaic

/-! ## Digits and bytes -/

namespace Text.Hex

/-- The digits in the order of their values, with letters of lower case. -/
def lowerDigits : List Char :=
  ['0', '1', '2', '3', '4', '5', '6', '7', '8', '9', 'a', 'b', 'c', 'd', 'e', 'f']

/-- The digits in the order of their values, with letters of upper case. -/
def upperDigits : List Char :=
  ['0', '1', '2', '3', '4', '5', '6', '7', '8', '9', 'A', 'B', 'C', 'D', 'E', 'F']

/-- The character is the digit of that value, in either case. -/
def IsDigit (c : Char) (n : Nat) : Prop := lowerDigits[n]? = some c ∨ upperDigits[n]? = some c

/-- The characters are the two digits of a byte, the more significant one first. -/
def IsByte (high low : Char) (b : UInt8) : Prop :=
  ∃ h l, IsDigit high h ∧ IsDigit low l ∧ b.toNat = 16 * h + l

/-- The characters are two digits of a byte, or a plus sign and its only digit. -/
def IsSignedByte (high low : Char) (b : UInt8) : Prop :=
  IsByte high low b ∨ high = '+' ∧ IsDigit low b.toNat

instance (c : Char) (n : Nat) : Decidable (IsDigit c n) := inferInstanceAs (Decidable (_ ∨ _))

variable {c high low : Char} {n h l : Nat} {b : UInt8}

theorem IsDigit.lt (h : IsDigit c n) : n < 16 := by
  rcases h with h | h
  · exact (List.getElem?_eq_some_iff.1 h).1
  · exact (List.getElem?_eq_some_iff.1 h).1

theorem IsDigit.ne_plus (h : IsDigit c n) : c ≠ '+' := by
  have hnone : ∀ n < 16, ¬ IsDigit '+' n := by decide
  rintro rfl
  exact hnone n h.lt h

/-- A character of a run of digits that follow one another also as characters. -/
theorem getElem?_of_run {digits : List Char} {first : Char} {start len : Nat}
    (hrun : ∀ k < len, digits[start + k]? = some (Char.ofNat (first.toNat + k)))
    (hfirst : first ≤ c) (hlast : c.toNat < first.toNat + len) :
    digits[start + (c.toNat - first.toNat)]? = some c := by
  have hle : first.toNat ≤ c.toNat := hfirst
  rw [hrun _ (by omega), Nat.add_sub_cancel' hle, Char.ofNat_toNat]

theorem isDigit_of_digit? (h : digit? c = some n) : IsDigit c n := by
  have hlast {d : Char} (hd : c ≤ d) : c.toNat ≤ d.toNat := hd
  unfold digit? at h
  split at h
  · rename_i hc
    obtain rfl := Option.some.inj h
    have hle : c.toNat ≤ 57 := hlast hc.2
    have hrun : ∀ k < 10, lowerDigits[0 + k]? = some (Char.ofNat ('0'.toNat + k)) := by decide
    have hget := getElem?_of_run hrun hc.1 (Nat.lt_succ_of_le hle)
    rw [Nat.zero_add] at hget
    exact .inl hget
  · split at h
    · rename_i hc
      obtain rfl := Option.some.inj h
      have hle : c.toNat ≤ 102 := hlast hc.2
      have hrun : ∀ k < 6, lowerDigits[10 + k]? = some (Char.ofNat ('a'.toNat + k)) := by decide
      have hget := getElem?_of_run hrun hc.1 (Nat.lt_succ_of_le hle)
      rw [Nat.add_comm] at hget
      exact .inl hget
    · split at h
      · rename_i hc
        obtain rfl := Option.some.inj h
        have hle : c.toNat ≤ 70 := hlast hc.2
        have hrun : ∀ k < 6, upperDigits[10 + k]? = some (Char.ofNat ('A'.toNat + k)) := by decide
        have hget := getElem?_of_run hrun hc.1 (Nat.lt_succ_of_le hle)
        rw [Nat.add_comm] at hget
        exact .inr hget
      · cases h

theorem digit?_of_digits :
    ∀ n < 16, lowerDigits[n]?.bind digit? = some n ∧ upperDigits[n]?.bind digit? = some n := by
  decide

theorem digit?_eq_some_iff : digit? c = some n ↔ IsDigit c n := by
  constructor
  · exact isDigit_of_digit?
  · intro h
    obtain ⟨hlower, hupper⟩ := digit?_of_digits n h.lt
    rcases h with h | h
    · rwa [h] at hlower
    · rwa [h] at hupper

theorem ofNat_eq_iff (hn : n < 256) : UInt8.ofNat n = b ↔ b.toNat = n := by
  constructor
  · rintro rfl
    exact UInt8.toNat_ofNat_of_lt hn
  · rintro rfl
    exact UInt8.ofNat_toNat

theorem IsByte.high_ne_plus (h : IsByte high low b) : high ≠ '+' := by
  obtain ⟨_, _, hh, _⟩ := h
  exact hh.ne_plus

theorem IsSignedByte.low_ne_plus (h : IsSignedByte high low b) : low ≠ '+' := by
  rcases h with ⟨_, _, _, hl, _⟩ | ⟨_, hl⟩
  · exact hl.ne_plus
  · exact hl.ne_plus

theorem isByte_iff : IsByte high low b ↔ IsSignedByte high low b ∧ high ≠ '+' := by
  constructor
  · intro h
    exact ⟨.inl h, h.high_ne_plus⟩
  · rintro ⟨h | ⟨hplus, _⟩, hne⟩
    · exact h
    · exact absurd hplus hne

theorem byte?_eq_some_iff : byte? high low = some b ↔ IsSignedByte high low b := by
  unfold byte?
  by_cases hplus : high = '+'
  · rw [if_pos hplus]
    simp only [Option.map_eq_some_iff, digit?_eq_some_iff]
    constructor
    · rintro ⟨l, hl, hb⟩
      have := hl.lt
      rw [ofNat_eq_iff (by omega)] at hb
      exact .inr ⟨hplus, hb ▸ hl⟩
    · rintro (hbyte | ⟨_, hl⟩)
      · exact absurd hplus hbyte.high_ne_plus
      · exact ⟨b.toNat, hl, UInt8.ofNat_toNat⟩
  · rw [if_neg hplus]
    simp only [Option.bind_eq_bind, Option.bind_eq_some_iff, digit?_eq_some_iff, Option.pure_def,
      Option.some.injEq]
    constructor
    · rintro ⟨h, hh, l, hl, hb⟩
      have := hh.lt
      have := hl.lt
      rw [ofNat_eq_iff (by omega)] at hb
      exact .inl ⟨h, l, hh, hl, hb⟩
    · rintro (⟨h, l, hh, hl, hb⟩ | ⟨hsign, _⟩)
      · have := hh.lt
        have := hl.lt
        exact ⟨h, hh, l, hl, (ofNat_eq_iff (by omega)).2 hb⟩
      · exact absurd hsign hplus

/-- The characters are the two upper-case digits of a byte. -/
def IsUpperByte (high low : Char) (b : UInt8) : Prop :=
  ∃ h l, upperDigits[h]? = some high ∧ upperDigits[l]? = some low ∧ b.toNat = 16 * h + l

theorem upperDigits_getElem? : ∀ n < 16, upperDigits[n]? = some (upper n) := by decide

theorem isUpperByte_iff : IsUpperByte high low b ↔ write b = [high, low] := by
  have hb : b.toNat < 256 := b.toNat_lt
  simp only [write, List.cons.injEq, and_true]
  constructor
  · rintro ⟨h, l, hh, hl, hvalue⟩
    have hh16 : h < 16 := (List.getElem?_eq_some_iff.1 hh).1
    have hl16 : l < 16 := (List.getElem?_eq_some_iff.1 hl).1
    rw [upperDigits_getElem? h hh16] at hh
    rw [upperDigits_getElem? l hl16] at hl
    have hdiv : b.toNat / 16 = h := by omega
    have hmod : b.toNat % 16 = l := by omega
    rw [hdiv, hmod]
    exact ⟨Option.some.inj hh, Option.some.inj hl⟩
  · rintro ⟨rfl, rfl⟩
    refine ⟨b.toNat / 16, b.toNat % 16, upperDigits_getElem? _ ?_, upperDigits_getElem? _ ?_, ?_⟩
    · omega
    · omega
    · omega

end Text.Hex

/-! ## Colour codes -/

namespace Colour

open Text.Hex

/-- A number sign and three pairs of characters, one for each part of the colour. -/
def InPairs (pair : Char → Char → UInt8 → Prop) (text : String) (c : Colour) : Prop :=
  ∃ r₁ r₀ g₁ g₀ b₁ b₀, text.toList = ['#', r₁, r₀, g₁, g₀, b₁, b₀] ∧
    pair r₁ r₀ c.red ∧ pair g₁ g₀ c.green ∧ pair b₁ b₀ c.blue

/-- A number sign and six digits. -/
def IsCode (text : String) (c : Colour) : Prop := InPairs IsByte text c

/-- A number sign and six characters, of which the first of each pair may be a plus sign. -/
def IsSignedCode (text : String) (c : Colour) : Prop := InPairs IsSignedByte text c

variable {text : String} {c : Colour}

theorem ofCode?_eq_some_iff : ofCode? text = some c ↔ IsSignedCode text c := by
  unfold ofCode? IsSignedCode InPairs
  constructor
  · intro h
    split at h
    · rename_i r₁ r₀ g₁ g₀ b₁ b₀ htext
      simp only [Option.bind_eq_bind, Option.bind_eq_some_iff, Option.pure_def,
        Option.some.injEq] at h
      obtain ⟨red, hr, green, hg, blue, hb, rfl⟩ := h
      exact ⟨r₁, r₀, g₁, g₀, b₁, b₀, htext, byte?_eq_some_iff.1 hr, byte?_eq_some_iff.1 hg,
        byte?_eq_some_iff.1 hb⟩
    · simp at h
  · rintro ⟨r₁, r₀, g₁, g₀, b₁, b₀, htext, hr, hg, hb⟩
    simp [htext, byte?_eq_some_iff.2 hr, byte?_eq_some_iff.2 hg, byte?_eq_some_iff.2 hb]

theorem isCode_iff : IsCode text c ↔ IsSignedCode text c ∧ '+' ∉ text.toList := by
  unfold IsCode IsSignedCode InPairs
  constructor
  · rintro ⟨r₁, r₀, g₁, g₀, b₁, b₀, htext, hr, hg, hb⟩
    obtain ⟨hr, hr₁⟩ := isByte_iff.1 hr
    obtain ⟨hg, hg₁⟩ := isByte_iff.1 hg
    obtain ⟨hb, hb₁⟩ := isByte_iff.1 hb
    refine ⟨⟨r₁, r₀, g₁, g₀, b₁, b₀, htext, hr, hg, hb⟩, ?_⟩
    -- the second character of a pair is a digit in any case
    simp [htext, hr₁.symm, hg₁.symm, hb₁.symm, hr.low_ne_plus.symm, hg.low_ne_plus.symm,
      hb.low_ne_plus.symm]
  · rintro ⟨⟨r₁, r₀, g₁, g₀, b₁, b₀, htext, hr, hg, hb⟩, hplus⟩
    rw [htext] at hplus
    simp only [List.mem_cons, not_or] at hplus
    obtain ⟨-, hr₁, -, hg₁, -, hb₁, -⟩ := hplus
    exact ⟨r₁, r₀, g₁, g₀, b₁, b₀, htext, isByte_iff.2 ⟨hr, Ne.symm hr₁⟩,
      isByte_iff.2 ⟨hg, Ne.symm hg₁⟩, isByte_iff.2 ⟨hb, Ne.symm hb₁⟩⟩

/-- A number sign and six digits, with letters of upper case. -/
def IsUpperCode (text : String) (c : Colour) : Prop := InPairs IsUpperByte text c

theorem isUpperCode_iff : IsUpperCode text c ↔ text = c.code := by
  rw [← String.toList_inj, code, String.toList_ofList]
  constructor
  · rintro ⟨r₁, r₀, g₁, g₀, b₁, b₀, htext, hr, hg, hb⟩
    rw [htext, isUpperByte_iff.1 hr, isUpperByte_iff.1 hg, isUpperByte_iff.1 hb]
    rfl
  · intro htext
    exact ⟨_, _, _, _, _, _, htext, isUpperByte_iff.2 rfl, isUpperByte_iff.2 rfl,
      isUpperByte_iff.2 rfl⟩

theorem IsSignedCode.head (h : IsSignedCode text c) : text.toList.head? = some '#' := by
  obtain ⟨_, _, _, _, _, _, htext, _⟩ := h
  simp [htext]

end Colour

/-! ## Backgrounds -/

namespace Background

open Colour

/-- The text is one of the three words or the code of a colour. -/
inductive Denotes (code : String → Colour → Prop) : String → Background → Prop where
  | transparent : Denotes code "transparent" .transparent
  | white : Denotes code "white" .white
  | black : Denotes code "black" .black
  | colour {text : String} {c : Colour} (h : code text c) : Denotes code text (.colour c)

variable {text : String} {b : Background}

theorem ofText_eq_ok_iff : ofText text = .ok b ↔ Denotes IsSignedCode text b := by
  constructor
  · intro h
    unfold ofText at h
    split at h
    · rename_i hword
      cases h
      exact hword ▸ .transparent
    · split at h
      · rename_i hword
        cases h
        exact hword ▸ .white
      · split at h
        · rename_i hword
          cases h
          exact hword ▸ .black
        · split at h
          · rename_i c hcode
            cases h
            exact .colour (ofCode?_eq_some_iff.1 hcode)
          · cases h
  · intro h
    cases h with
    | transparent => rfl
    | white => rfl
    | black => rfl
    | @colour _ c hcode =>
      have hne {word : String} (hword : word.toList.head? ≠ some '#') : text ≠ word := by
        rintro rfl
        exact hword hcode.head
      have h₁ : text ≠ "transparent" := hne (by decide)
      have h₂ : text ≠ "white" := hne (by decide)
      have h₃ : text ≠ "black" := hne (by decide)
      simp [ofText, h₁, h₂, h₃, ofCode?_eq_some_iff.2 hcode]

theorem ofText_error {e : CoverError} (h : ofText text = .error e) :
    e = .badOption "background" text
      "must be one of transparent, white, black or a color code #rrggbb" := by
  unfold ofText at h
  split at h
  · cases h
  · split at h
    · cases h
    · split at h
      · cases h
      · split at h
        · cases h
        · exact (Except.error.inj h).symm

theorem ofText_eq_error_iff {e : CoverError} :
    ofText text = .error e ↔ (∀ b, ¬ Denotes IsSignedCode text b) ∧
      e = .badOption "background" text
        "must be one of transparent, white, black or a color code #rrggbb" := by
  simp only [← ofText_eq_ok_iff]
  exact eq_error_iff_forall_ne_ok fun e => ofText_error

theorem denotes_isCode_iff :
    Denotes IsCode text b ↔ Denotes IsSignedCode text b ∧ '+' ∉ text.toList := by
  constructor
  · intro h
    cases h with
    | transparent => exact ⟨.transparent, by decide⟩
    | white => exact ⟨.white, by decide⟩
    | black => exact ⟨.black, by decide⟩
    | colour hcode => exact ⟨.colour (isCode_iff.1 hcode).1, (isCode_iff.1 hcode).2⟩
  · rintro ⟨h, hplus⟩
    cases h with
    | transparent => exact .transparent
    | white => exact .white
    | black => exact .black
    | colour hcode => exact .colour (isCode_iff.2 ⟨hcode, hplus⟩)

/-- **The reader of backgrounds.** A colour is read from a number sign and three bytes, each of two
digits or of a plus sign and one digit. Without the plus sign that leaves the codes of six digits.
A background is read from such a text or one of the three words, and any other text is an error
that names it. -/
theorem ofText_decides (text : String) :
    (∀ c, ofCode? text = some c ↔ IsSignedCode text c) ∧
    (∀ c, IsCode text c ↔ ofCode? text = some c ∧ '+' ∉ text.toList) ∧
    (∀ b, ofText text = .ok b ↔ Denotes IsSignedCode text b) ∧
    (∀ b, Denotes IsCode text b ↔ ofText text = .ok b ∧ '+' ∉ text.toList) ∧
    ∀ e, ofText text = .error e ↔ (∀ b, ¬ Denotes IsSignedCode text b) ∧
      e = .badOption "background" text
        "must be one of transparent, white, black or a color code #rrggbb" := by
  refine ⟨fun c => ofCode?_eq_some_iff, fun c => ?_, fun b => ofText_eq_ok_iff, fun b => ?_,
    fun e => ofText_eq_error_iff⟩
  · rw [isCode_iff, ofCode?_eq_some_iff]
  · rw [denotes_isCode_iff, ofText_eq_ok_iff]

/-- Letters of either case count as digits. -/
example : ofText "#1a2B3c" = .ok (.colour ⟨26, 43, 60⟩) := rfl

/-- Plus signs stand for half of the digits that are asked for. -/
theorem ofCode?_plus_signs :
    ofCode? "#+f+f+f" = some ⟨15, 15, 15⟩ ∧
    ofText "#+f+f+f" = .ok (.colour ⟨15, 15, 15⟩) ∧
    (∀ c, ¬ IsCode "#+f+f+f" c) ∧ ∀ b, ¬ Denotes IsCode "#+f+f+f" b := by
  have hplus : '+' ∈ "#+f+f+f".toList := by decide
  refine ⟨by decide, rfl, fun c h => ?_, fun b h => ?_⟩
  · exact (isCode_iff.1 h).2 hplus
  · exact (denotes_isCode_iff.1 h).2 hplus

/-! ## The written form -/

theorem denotes_isUpperCode_iff : Denotes IsUpperCode text b ↔ text = b.text := by
  constructor
  · intro h
    cases h with
    | transparent => rfl
    | white => rfl
    | black => rfl
    | colour hcode => exact isUpperCode_iff.1 hcode
  · rintro rfl
    cases b with
    | transparent => exact .transparent
    | white => exact .white
    | black => exact .black
    | colour c => exact .colour (isUpperCode_iff.2 rfl)

/-- **What is written of a background reads back.** It is one of the three words, or the one code
of its colour that has six digits with letters of upper case. So a text that is read has a written
form that is read as the same background, and texts of one background are those of one written
form. The code of white and the word for it are two backgrounds. -/
theorem text_of_accepted :
    (∀ text b, ofText text = .ok b →
      (∀ form, Denotes IsUpperCode form b ↔ form = b.text) ∧ ofText b.text = .ok b) ∧
    ∀ text text' b b', ofText text = .ok b → ofText text' = .ok b' →
      (b = b' ↔ b.text = b'.text) := by
  refine ⟨fun text b _ => ⟨fun form => ?_, ofText_text b⟩, fun text text' b b' _ _ => ?_⟩
  · exact denotes_isUpperCode_iff
  · exact eq_iff_written_eq ofText_text

/-- Three spellings of one colour, and white by its name and by its code. -/
theorem text_of_accepted_spellings :
    let b : Background := .colour ⟨15, 255, 10⟩
    ofText "#0ffF0a" = .ok b ∧ ofText "#+fFf+A" = .ok b ∧ ofText "#0FFF0A" = .ok b ∧
    ofText "white" = .ok .white ∧ ofText "#ffffff" = .ok (.colour ⟨255, 255, 255⟩) ∧
    Background.text .white ≠ Background.text (.colour ⟨255, 255, 255⟩) := by
  intro b
  have hlower : ofText "#0ffF0a" = .ok b := by decide
  have hsigned : ofText "#+fFf+A" = .ok b := by decide
  have hword : ofText "white" = .ok .white := rfl
  have hcode : ofText "#ffffff" = .ok (.colour ⟨255, 255, 255⟩) := by decide
  obtain ⟨hreads, hsame⟩ := text_of_accepted
  obtain ⟨hform, hback⟩ := hreads _ _ hlower
  have hupper : Denotes IsUpperCode "#0FFF0A" b :=
    .colour ⟨'0', 'F', 'F', 'F', '0', 'A', by decide, ⟨0, 15, by decide⟩, ⟨15, 15, by decide⟩,
      ⟨0, 10, by decide⟩⟩
  refine ⟨hlower, hsigned, ?_, hword, hcode, ?_⟩
  · rw [(hform _).1 hupper]
    exact hback
  · intro h
    exact absurd ((hsame _ _ _ _ hword hcode).2 h) (by decide)

end Background

end CoverMosaic
