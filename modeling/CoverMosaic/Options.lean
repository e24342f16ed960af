import CoverMosaic.Error
/-!
# Backgrounds and options

What a caller chooses: the grid, what is painted behind the images, and what happens where artwork
is missing. A background is nothing, one of two named colours, or a colour given by a code of six
characters after a number sign; `Background.ofText_text` says that its written form reads back.

The options are checked in one pass; the first one out of range is reported, in the order
dimension, background, image size.

| here | there |
| --- | --- |
| `Colour.ofCode?`                       | `parse_color_code` |
| `Background.ofText`, `Background.text` | `Background`, read from a text and displayed |
| `Options`, `Options.check`             | `GridConfig` with the defaults of `new`, and `validate` |
-/
namespace CoverMosaic

/-! ## Backgrounds -/

/-- Red, green and blue parts. -/
structure Colour where
  red : UInt8
  green : UInt8
  blue : UInt8
  deriving DecidableEq, Repr

/-- What is painted behind the images. -/
inductive Background where
  | transparent | white | black
  | colour (c : Colour)
  deriving DecidableEq, Repr

namespace Colour

/-- Reads a number sign and three bytes of two characters each. -/
def ofCode? (code : String) : Option Colour :=
  match code.toList with
  | ['#', r₁, r₀, g₁, g₀, b₁, b₀] => do
    let red ← Text.Hex.byte? r₁ r₀
    let green ← Text.Hex.byte? g₁ g₀
    let blue ← Text.Hex.byte? b₁ b₀
    return ⟨red, green, blue⟩
  | _ => none

/-- A number sign and six upper-case digits. -/
def code (c : Colour) : String :=
  String.ofList
    ('#' :: (Text.Hex.write c.red ++ Text.Hex.write c.green ++ Text.Hex.write c.blue))

theorem ofCode?_code (c : Colour) : ofCode? c.code = some c := by
  simp [ofCode?, code, Text.Hex.write, Text.Hex.byte?_write]

end Colour

namespace Background

/-- Reads one of the three words or a colour code. -/
def ofText (text : String) : Except CoverError Background :=
  if text = "transparent" then .ok .transparent
  else if text = "white" then .ok .white
  else if text = "black" then .ok .black
  else match Colour.ofCode? text with
    | some c => .ok (.colour c)
    | none => .error (.badOption "background" text
        "must be one of transparent, white, black or a color code #rrggbb")

/-- The word or the colour code of a background. -/
def text : Background → String
  | .transparent => "transparent"
  | .white => "white"
  | .black => "black"
  | .colour c => c.code

theorem code_ne {c : Colour} {word : String} (h : word.toList.head? ≠ some '#') :
    c.code ≠ word := by
  rintro rfl
  simp [Colour.code] at h

theorem ofText_text (b : Background) : ofText b.text = .ok b := by
  cases b with
  | transparent => rfl
  | white => rfl
  | black => rfl
  | colour c =>
    have h₁ : c.code ≠ "transparent" := code_ne (by decide)
    have h₂ : c.code ≠ "white" := code_ne (by decide)
    have h₃ : c.code ≠ "black" := code_ne (by decide)
    simp [ofText, text, h₁, h₂, h₃, Colour.ofCode?_code]

end Background

/-! ## Options -/

/-- What a caller chooses for one cover. -/
structure Options where
  /-- Tiles on a side. -/
  dimension : Nat
  /-- Pixels on a side. -/
  imageSize : Nat
  /-- The background as it was given. -/
  background : String := Limits.defaultBackground
  /-- Whether candidates without artwork are passed over. -/
  skipMissing : Bool := true
  /-- Whether a cell without artwork shows the placeholder image. -/
  showPlaceholder : Bool := true
  deriving DecidableEq, Repr

/-- Accepts a number between two bounds, both included. -/
def checkRange (parameter : String) (low high n : Nat) : Except CoverError Unit :=
  if low ≤ n ∧ n ≤ high then .ok ()
  else .error (.badOption parameter (Text.Decimal.text n)
    ("must be between " ++ Text.Decimal.text low ++ " and " ++ Text.Decimal.text high ++
      ", inclusive"))

namespace Options

/-- Checks every option and gives the background that was named. -/
def check (o : Options) : Except CoverError Background := do
  checkRange "dimension" Limits.minDimension Limits.maxDimension o.dimension
  let background ← Background.ofText o.background
  checkRange "image_size" Limits.minImageSize Limits.maxImageSize o.imageSize
  return background

end Options

theorem checkRange_eq_ok_iff {parameter : String} {low high n : Nat} :
    checkRange parameter low high n = .ok () ↔ low ≤ n ∧ n ≤ high := by
  unfold checkRange
  split <;> simp_all

theorem Options.check_eq_ok_iff {o : Options} {b : Background} :
    o.check = .ok b ↔
      (Limits.minDimension ≤ o.dimension ∧ o.dimension ≤ Limits.maxDimension) ∧
      Background.ofText o.background = .ok b ∧
      (Limits.minImageSize ≤ o.imageSize ∧ o.imageSize ≤ Limits.maxImageSize) := by
  rw [← @checkRange_eq_ok_iff "dimension",
    ← @checkRange_eq_ok_iff "image_size"]
  constructor
  · intro h
    cases hd : checkRange "dimension" Limits.minDimension Limits.maxDimension o.dimension <;>
    cases hb : Background.ofText o.background <;>
    cases hs : checkRange "image_size" Limits.minImageSize Limits.maxImageSize o.imageSize <;>
    simp_all [check, bind, Except.bind, pure, Except.pure]
  · rintro ⟨hd, hb, hs⟩
    simp [check, bind, Except.bind, pure, Except.pure, hd, hb, hs]

end CoverMosaic
