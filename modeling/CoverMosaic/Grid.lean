import CoverMosaic.Error
/-!
# Addresses, boxes and grids

An address names one or more tiles by their numbers, separated by commas, as in `0,1,3,4`. The
reader allows blanks around a number, a plus sign in front of it and leading zeros; the writer
puts none of these. Order and repetition are kept.

A box is given by two corners. It covers the pixels between them, both corners included, and
paints those short of the far corner: an image drawn into a box takes `width * height` pixels.

A square image is divided into `dimension * dimension` tiles, numbered row by row. The side of a
tile is the truncated quotient of image size and dimension; the last row and the last column end
at the last pixel of the image, so that truncation leaves no gap there. The box of an address is
the merge of the boxes of its tiles.

| here | there |
| --- | --- |
| `Address.ofTiles`, `.ofText`, `.text` | `TileAddress`: `new`, reading a text, displaying |
| `Box.Covers`, `Box.merge`             | `BoundingBox`: `contains`, `union` |
| `Grid.locate?`                        | `tile_coordinates` of `GridGeometry` |
| `Grid.edge`, `.placeBox`, `.tileBox?` | `tile_position`, whose two clamps are `edge` |
| `Grid.addressBox?`, `.boxOfText`      | `address_bounds`, `bounding_box` |

Numbers are natural numbers here. That words of thirty-two bits do as well is shown of the grid on
words (`WordGrid`).
-/
namespace CoverMosaic

/-! ## Addresses -/

/-- The number of a tile, counted row by row from the top left. -/
abbrev Tile := UInt32

/-- The tiles that share one cell of a design; there is at least one. -/
structure Address where
  first : Tile
  others : List Tile
  deriving DecidableEq, Repr

/-- A tile number written in decimal, below `2 ^ 32`, with blanks around it. -/
def Tile.read? (cs : List Char) : Option Tile := do
  let n ← Text.Decimal.read? (Text.trim cs)
  if h : n < UInt32.size then some (UInt32.ofNatLT n h) else none

namespace Address

/-- The tiles in the order in which they were written. -/
def tiles (a : Address) : List Tile := a.first :: a.others

/-- The address of the given tiles, if there are any. -/
def ofTiles? : List Tile → Option Address
  | [] => none
  | t :: ts => some ⟨t, ts⟩

/-- The address of the given tiles; without tiles the error names the empty text. -/
def ofTiles (ts : List Tile) : Except CoverError Address :=
  match ofTiles? ts with
  | some a => .ok a
  | none => .error (.badAddress "")

/-- Reads a comma-separated list of tile numbers. -/
def read? (text : String) : Option Address := do
  let ts ← (Text.fields ',' text.toList).mapM Tile.read?
  ofTiles? ts

/-- Reads an address; the error carries the whole text as it was given. -/
def ofText (text : String) : Except CoverError Address :=
  match read? text with
  | some a => .ok a
  | none => .error (.badAddress text)

/-- The tile numbers with a comma between two of them. -/
def text (a : Address) : String :=
  String.ofList (Text.join ',' (a.tiles.map fun t => Text.Decimal.write t.toNat))

theorem ofTiles?_eq_some_iff {ts : List Tile} {a : Address} :
    ofTiles? ts = some a ↔ ts = a.tiles := by
  cases ts with
  | nil => simp [ofTiles?, tiles]
  | cons t ts => cases a; simp [ofTiles?, tiles]

theorem ofTiles_eq_ok_iff {ts : List Tile} {a : Address} : ofTiles ts = .ok a ↔ ts = a.tiles := by
  rw [← ofTiles?_eq_some_iff, ofTiles]
  cases ofTiles? ts <;> simp

theorem ofText_error {text : String} {e : CoverError} (h : ofText text = .error e) :
    e = .badAddress text := by
  unfold ofText at h
  split at h
  · cases h
  · exact (Except.error.inj h).symm

end Address

/-! ## Boxes -/

/-- A position in the image, counted from the top left. -/
structure Pixel where
  x : Nat
  y : Nat
  deriving DecidableEq, Repr

/-- A rectangle with sides along the axes. -/
structure Box where
  /-- The top left corner. -/
  near : Pixel
  /-- The bottom right corner. -/
  far : Pixel
  deriving DecidableEq, Repr

namespace Box

/-- Horizontal extent. -/
def width (b : Box) : Nat := b.far.x - b.near.x

/-- Vertical extent. -/
def height (b : Box) : Nat := b.far.y - b.near.y

/-- The corners do not stand in the wrong order. -/
def Upright (b : Box) : Prop := b.near.x ≤ b.far.x ∧ b.near.y ≤ b.far.y

/-- The pixel lies between the corners or on one of the four sides. -/
def Covers (b : Box) (p : Pixel) : Prop :=
  (b.near.x ≤ p.x ∧ p.x ≤ b.far.x) ∧ (b.near.y ≤ p.y ∧ p.y ≤ b.far.y)

/-- The pixel lies between the corners, short of the far sides. -/
def Paints (b : Box) (p : Pixel) : Prop :=
  (b.near.x ≤ p.x ∧ p.x < b.far.x) ∧ (b.near.y ≤ p.y ∧ p.y < b.far.y)

instance (b : Box) : Decidable b.Upright := inferInstanceAs (Decidable (_ ∧ _))

instance (b : Box) (p : Pixel) : Decidable (b.Covers p) := inferInstanceAs (Decidable (_ ∧ _))

instance (b : Box) (p : Pixel) : Decidable (b.Paints p) := inferInstanceAs (Decidable (_ ∧ _))

/-- Grows a box to take in another. Both corners of the other count for both corners of the
result, so it does not matter in which order they stand. -/
def merge (b c : Box) : Box where
  near := ⟨min (min b.near.x c.near.x) c.far.x, min (min b.near.y c.near.y) c.far.y⟩
  far := ⟨max (max b.far.x c.near.x) c.far.x, max (max b.far.y c.near.y) c.far.y⟩

theorem Paints.covers {b : Box} {p : Pixel} (h : b.Paints p) : b.Covers p :=
  ⟨⟨h.1.1, Nat.le_of_lt h.1.2⟩, h.2.1, Nat.le_of_lt h.2.2⟩

theorem merge_upright {b : Box} (h : b.Upright) (c : Box) : (b.merge c).Upright := by
  obtain ⟨hx, hy⟩ := h
  constructor <;> simp only [merge] <;> omega

end Box

/-! ## Grids -/

/-- A square image divided into tiles. -/
structure Grid where
  /-- Tiles on a side. -/
  dimension : Nat
  /-- Pixels on a side. -/
  imageSize : Nat
  deriving DecidableEq, Repr

/-- Row and column of a tile. -/
structure Place where
  row : Nat
  col : Nat
  deriving DecidableEq, Repr

namespace Grid

/-- Side of a tile in pixels, rounded down; a grid without tiles has side zero. -/
def tileSize (g : Grid) : Nat := g.imageSize / g.dimension

/-- Number of tiles. -/
def tileCount (g : Grid) : Nat := g.dimension * g.dimension

/-- Row and column of a tile of the grid; a number past the last tile has none. -/
def locate? (g : Grid) (t : Tile) : Option Place :=
  if t.toNat < g.tileCount then some ⟨t.toNat / g.dimension, t.toNat % g.dimension⟩ else none

/-- Where row or column `k` ends: at the last pixel for the last one, else where the next begins. -/
def edge (g : Grid) (k : Nat) : Nat :=
  if k + 1 = g.dimension then g.imageSize - 1 else (k + 1) * g.tileSize

/-- The box of a place. -/
def placeBox (g : Grid) (p : Place) : Box where
  near := ⟨p.col * g.tileSize, p.row * g.tileSize⟩
  far := ⟨g.edge p.col, g.edge p.row⟩

/-- The box of a tile of the grid. -/
def tileBox? (g : Grid) (t : Tile) : Option Box := (g.locate? t).map g.placeBox

/-- The merged box of all tiles of an address, if the grid has them all. -/
def addressBox? (g : Grid) (a : Address) : Option Box := do
  let box ← g.tileBox? a.first
  let boxes ← a.others.mapM g.tileBox?
  return boxes.foldl Box.merge box

/-- The box of a written address; the error carries the text as it was given. -/
def boxOfText (g : Grid) (text : String) : Except CoverError Box := do
  let a ← Address.ofText text
  match g.addressBox? a with
  | some box => .ok box
  | none => .error (.badAddress text)

theorem tileSize_zero (s : Nat) : (Grid.mk 0 s).tileSize = 0 := Nat.div_zero s

theorem locate?_eq_some_iff {g : Grid} {t : Tile} {p : Place} :
    g.locate? t = some p ↔
      t.toNat < g.tileCount ∧ p = ⟨t.toNat / g.dimension, t.toNat % g.dimension⟩ := by
  unfold locate?
  split
  · rename_i h; simp [h, eq_comm]
  · rename_i h; simp [h]

theorem tileBox?_eq_none_iff {g : Grid} {t : Tile} :
    g.tileBox? t = none ↔ g.tileCount ≤ t.toNat := by
  simp [tileBox?, locate?]

end Grid

end CoverMosaic
