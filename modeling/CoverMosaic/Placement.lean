import CoverMosaic.Grid
/-!
# Artwork and its placement

Artwork is a reference into the archive, which keeps thumbnails of two sizes only. A policy says
what becomes of a candidate without artwork: it is passed over, or its cell shows the placeholder
or stays blank.

The cells of a design are filled in order from a queue of candidates. A cell takes the first
candidate that is not passed over; a candidate that was passed over or placed never comes back.
Boxes are worked out before any candidate is looked at, so a bad address wins over all else.

| here | there |
| --- | --- |
| `Artwork.ofParts?`, `.thumbnail?` | `from_parts`, `resolve_url` |
| `Outcome`                         | `Resolution`: `Url`, `Skip`, `Empty` |
| `MissingArt`                      | the two flags of `CoverResolver` |
| `MissingArt.outcome`, `.url?`, `.fallback` | `resolve`, `missing_url`, `missing_outcome` |
| `Candidate`, `Image`              | `CoverCandidate`, `PlacedImage` |
| `MissingArt.settle`               | `fill_cell`, by recursion on the queue |
| `MissingArt.fill`, `Grid.place`   | the loop of `assemble`, and `assemble` |
-/
namespace CoverMosaic

/-! ## Artwork -/

/-- An image of the archive: its number and the release under which it is filed. -/
structure Artwork where
  image : UInt64
  release : String
  deriving DecidableEq, Repr

namespace Artwork

/-- Artwork needs both parts. -/
def ofParts? (image : Option UInt64) (release : Option String) : Option Artwork := do
  return ⟨← image, ← release⟩

/-- The address of a thumbnail, if the archive keeps that size. -/
def thumbnail? (a : Artwork) (size : Nat) : Option String :=
  if size ∈ Limits.thumbnailSizes then
    some (Limits.archiveRoot ++ "/mbid-" ++ a.release ++ "/mbid-" ++ a.release ++ "-" ++
      Text.Decimal.text a.image.toNat ++ "_thumb" ++ Text.Decimal.text size ++ ".jpg")
  else none

theorem thumbnail?_isSome_iff {a : Artwork} {size : Nat} :
    (a.thumbnail? size).isSome ↔ size ∈ Limits.thumbnailSizes := by
  unfold thumbnail?
  split
  · rename_i h; simp [h]
  · rename_i h; simp [h]

end Artwork

/-- What a candidate offers to the cell that it is tried for. -/
inductive Outcome where
  /-- The cell shows this image. -/
  | image (url : String)
  /-- The candidate is passed over and the next one is tried. -/
  | skip
  /-- The cell is settled and stays blank. -/
  | blank
  deriving DecidableEq, Repr

/-- What happens where artwork is missing. -/
structure MissingArt where
  /-- Candidates without artwork are passed over. -/
  skip : Bool
  /-- A cell without artwork shows the placeholder. -/
  placeholder : Bool
  deriving DecidableEq, Repr

namespace MissingArt

/-- The placeholder image, if the policy shows it. -/
def url? (p : MissingArt) : Option String :=
  if p.placeholder then some Limits.placeholderUrl else none

/-- The outcome for a cell that no artwork reaches. -/
def fallback (p : MissingArt) : Outcome :=
  match p.url? with
  | some url => .image url
  | none => .blank

/-- The outcome of one candidate's artwork. -/
def outcome (p : MissingArt) (size : Nat) : Option Artwork → Outcome
  | some a => match a.thumbnail? size with
    | some url => .image url
    | none => .blank
  | none => if p.skip then .skip else p.fallback

theorem fallback_ne_skip (p : MissingArt) : p.fallback ≠ .skip := by
  unfold fallback
  split <;> simp

theorem outcome_eq_skip_iff {p : MissingArt} {size : Nat} {art : Option Artwork} :
    p.outcome size art = .skip ↔ p.skip = true ∧ art = none := by
  cases art with
  | some a => simp only [outcome]; split <;> simp
  | none =>
    simp only [outcome, and_true]
    split
    · rename_i h; simp [h]
    · rename_i h; simp [h, fallback_ne_skip]

end MissingArt

/-! ## Placement -/

/-- Whose cover it is. -/
structure Credit where
  /-- Identifier of the release. -/
  release : String
  title : String
  artist : String
  deriving DecidableEq, Repr

/-- A release that waits for a cell. -/
structure Candidate where
  credit : Credit
  artwork : Option Artwork
  deriving DecidableEq, Repr

/-- An image with its position. -/
structure Image where
  left : Nat
  top : Nat
  width : Nat
  height : Nat
  url : String
  /-- Whose cover it is; a cell that ran out of candidates has no credit. -/
  credit : Option Credit
  deriving DecidableEq, Repr

/-- An image that fills a box. -/
def Image.inBox (box : Box) (url : String) (c : Option Candidate) : Image where
  left := box.near.x
  top := box.near.y
  width := box.width
  height := box.height
  url := url
  credit := c.map Candidate.credit

/-- How a cell came to rest: its outcome, the candidate behind it, and the queue after it. -/
structure Settled where
  outcome : Outcome
  candidate : Option Candidate
  rest : List Candidate
  deriving DecidableEq, Repr

namespace MissingArt

/-- Tries the candidates in order until one is not passed over. -/
def settle (p : MissingArt) (size : Nat) : List Candidate → Settled
  | [] => ⟨p.fallback, none, []⟩
  | c :: queue =>
    match p.outcome size c.artwork with
    | .skip => settle p size queue
    | outcome => ⟨outcome, some c, queue⟩

/-- Fills the boxes in order; a cell that stays blank has no image. -/
def fill (p : MissingArt) (size : Nat) : List Candidate → List Box → List Image
  | _, [] => []
  | queue, box :: boxes =>
    let cell := p.settle size queue
    match cell.outcome with
    | .image url => Image.inBox box url cell.candidate :: fill p size cell.rest boxes
    | _ => fill p size cell.rest boxes

end MissingArt

/-- Fills the cells at the given addresses; the first bad address is the error. -/
def Grid.place (g : Grid) (p : MissingArt) (size : Nat) (candidates : List Candidate)
    (addresses : List String) : Except CoverError (List Image) := do
  let boxes ← addresses.mapM g.boxOfText
  return p.fill size candidates boxes

end CoverMosaic
