import CoverMosaic.Design.Partition
/-!
# Grids and designs on words

A word has thirty-two bits. An operation on words has the exact result where that is a word, and a
fault where it is none: nothing wraps round, and nothing is cut off at zero. A computation gives a
number when it meets no fault and its value stands for that number (`Gives`). Sequencing keeps this
(`Gives.bind`), so that what a computation gives is found operation by operation.

The grid and the check of a design are worked out once more on words, every sum, product, difference
and quotient one operation. The side of a tile is divided out once, when the grid is made. Where a
grid has no such tile the answer is `none`, which is no fault.

In the check a bit for each tile of the grid says whether the tile is claimed, and the rows and
columns of an address are taken up into running bounds that start at the largest word and at zero.
To ask for a bit that the set does not have is a fault too. A design that is refused is none.

| here | there |
| --- | --- |
| `WordGrid.ofGrid`                   | `new` of `GridGeometry` |
| `WordGrid.locate?`, `.tileBox?`, `.addressBox?` | `tile_coordinates`, `tile_position`, `address_bounds` |
| `TileBits.claim`                    | `replace` on the bit set `covered` |
| `WordSpan.seed`, `.insert`, `.area` | `rows` and `cols` at first, their update, and `spanned` |
| `WordGrid.check`                    | `verify_partition` |
-/
namespace CoverMosaic

/-! ## Words -/

/-- A natural number of thirty-two bits. -/
abbrev Word := UInt32

/-- Why an operation on words has no result. -/
inductive Fault where
  | overflow
  | underflow
  | divisionByZero
  deriving DecidableEq, Repr

namespace Word

/-- The word of a number, if the number is small enough. -/
def ofExact (n : Nat) : Except Fault Word :=
  if h : n < UInt32.size then .ok (UInt32.ofNatLT n h) else .error .overflow

/-- The sum, if it is a word. -/
def add (a b : Word) : Except Fault Word := ofExact (a.toNat + b.toNat)

/-- The product, if it is a word. -/
def mul (a b : Word) : Except Fault Word := ofExact (a.toNat * b.toNat)

/-- The difference, if it is not below zero. -/
def sub (a b : Word) : Except Fault Word := if b ≤ a then .ok (a - b) else .error .underflow

/-- The quotient, rounded down. -/
def div (a b : Word) : Except Fault Word := if b = 0 then .error .divisionByZero else .ok (a / b)

/-- The remainder. -/
def mod (a b : Word) : Except Fault Word := if b = 0 then .error .divisionByZero else .ok (a % b)

end Word

/-! ## Computations without a fault -/

/-- The computation meets no fault, and its value stands for `b`. -/
def Gives {α β : Type} (stands : α → β) (x : Except Fault α) (b : β) : Prop :=
  ∃ a, x = .ok a ∧ stands a = b

section
variable {α β γ δ : Type} {stands : α → β} {stands' : γ → δ}

theorem gives_pure {a : α} {b : β} (h : stands a = b) : Gives stands (pure a) b := ⟨a, rfl, h⟩

theorem Gives.bind {x : Except Fault α} {b : β} (hx : Gives stands x b) {f : α → Except Fault γ}
    {d : δ} (hf : ∀ a, stands a = b → Gives stands' (f a) d) : Gives stands' (x >>= f) d := by
  obtain ⟨a, rfl, ha⟩ := hx
  exact hf a ha

end

namespace Word

variable {a b : Word} {n : Nat}

theorem ofExact_gives (h : n < UInt32.size) : Gives UInt32.toNat (ofExact n) n := by
  unfold ofExact
  rw [dif_pos h]
  exact ⟨_, rfl, UInt32.toNat_ofNatLT⟩

theorem add_gives (h : a.toNat + b.toNat < UInt32.size) :
    Gives UInt32.toNat (add a b) (a.toNat + b.toNat) := ofExact_gives h

theorem mul_gives (h : a.toNat * b.toNat < UInt32.size) :
    Gives UInt32.toNat (mul a b) (a.toNat * b.toNat) := ofExact_gives h

theorem sub_gives (h : b.toNat ≤ a.toNat) : Gives UInt32.toNat (sub a b) (a.toNat - b.toNat) := by
  have hle : b ≤ a := UInt32.le_iff_toNat_le.2 h
  unfold sub
  rw [if_pos hle]
  exact ⟨_, rfl, UInt32.toNat_sub_of_le a b hle⟩

theorem ne_zero_of_pos (h : 0 < b.toNat) : b ≠ 0 := by
  rintro rfl
  exact absurd h (by decide)

theorem div_gives (h : 0 < b.toNat) : Gives UInt32.toNat (div a b) (a.toNat / b.toNat) := by
  unfold div
  rw [if_neg (ne_zero_of_pos h)]
  exact ⟨_, rfl, UInt32.toNat_div a b⟩

theorem mod_gives (h : 0 < b.toNat) : Gives UInt32.toNat (mod a b) (a.toNat % b.toNat) := by
  unfold mod
  rw [if_neg (ne_zero_of_pos h)]
  exact ⟨_, rfl, UInt32.toNat_mod a b⟩

theorem toNat_min (a b : Word) : (min a b).toNat = min a.toNat b.toNat := by
  by_cases h : a ≤ b
  · have hle := UInt32.le_iff_toNat_le.1 h
    rw [show min a b = a from if_pos h, Nat.min_eq_left hle]
  · have hle : b.toNat ≤ a.toNat := by
      have := mt UInt32.le_iff_toNat_le.2 h
      omega
    rw [show min a b = b from if_neg h, Nat.min_eq_right hle]

theorem toNat_max (a b : Word) : (max a b).toNat = max a.toNat b.toNat := by
  by_cases h : a ≤ b
  · have hle := UInt32.le_iff_toNat_le.1 h
    rw [show max a b = b from if_pos h, Nat.max_eq_right hle]
  · have hle : b.toNat ≤ a.toNat := by
      have := mt UInt32.le_iff_toNat_le.2 h
      omega
    rw [show max a b = a from if_neg h, Nat.max_eq_left hle]

end Word

/-! ## Grids -/

/-- Row and column of a tile. -/
structure WordPlace where
  row : Word
  col : Word
  deriving DecidableEq, Repr

/-- A rectangle with sides along the axes. -/
structure WordBox where
  left : Word
  top : Word
  right : Word
  bottom : Word
  deriving DecidableEq, Repr

/-- The numbers that a grid is worked out from. -/
structure WordGrid where
  dimension : Word
  imageSize : Word
  tileSize : Word
  deriving DecidableEq, Repr

/-- The place that the words stand for. -/
def WordPlace.toPlace (p : WordPlace) : Place := ⟨p.row.toNat, p.col.toNat⟩

namespace WordBox

/-- The box that the words stand for. -/
def toBox (b : WordBox) : Box :=
  ⟨⟨b.left.toNat, b.top.toNat⟩, ⟨b.right.toNat, b.bottom.toNat⟩⟩

/-- Horizontal extent. -/
def width (b : WordBox) : Except Fault Word := Word.sub b.right b.left

/-- Vertical extent. -/
def height (b : WordBox) : Except Fault Word := Word.sub b.bottom b.top

/-- Grows a box to take in both corners of another. -/
def merge (b c : WordBox) : WordBox where
  left := min (min b.left c.left) c.right
  top := min (min b.top c.top) c.bottom
  right := max (max b.right c.left) c.right
  bottom := max (max b.bottom c.top) c.bottom

theorem toBox_merge (b c : WordBox) : (b.merge c).toBox = b.toBox.merge c.toBox := by
  simp only [toBox, merge, Box.merge, Word.toNat_min, Word.toNat_max]

end WordBox

namespace WordGrid

/-- Side of a tile in pixels, rounded down; a grid without tiles has side zero. -/
def tileSide (dimension imageSize : Word) : Except Fault Word :=
  if dimension = 0 then .ok 0 else Word.div imageSize dimension

/-- The words of a grid, if its sides are words. -/
def ofGrid (g : Grid) : Except Fault WordGrid := do
  let dimension ← Word.ofExact g.dimension
  let imageSize ← Word.ofExact g.imageSize
  let tileSize ← tileSide dimension imageSize
  return ⟨dimension, imageSize, tileSize⟩

/-- Number of tiles. -/
def tileCount (g : WordGrid) : Except Fault Word := Word.mul g.dimension g.dimension

/-- Row and column of a tile of the grid. -/
def locate? (g : WordGrid) (t : Tile) : Except Fault (Option WordPlace) := do
  let count ← g.tileCount
  if count ≤ t then return none
  let row ← Word.div t g.dimension
  let col ← Word.mod t g.dimension
  return some ⟨row, col⟩

/-- Where row or column `k` ends. The start of the next one is worked out for the last one too. -/
def edge (g : WordGrid) (k : Word) : Except Fault Word := do
  let next ← Word.add k 1
  let inner ← Word.mul next g.tileSize
  let last ← Word.sub g.dimension 1
  if k = last then Word.sub g.imageSize 1 else return inner

/-- The box of a place. -/
def placeBox (g : WordGrid) (p : WordPlace) : Except Fault WordBox := do
  let left ← Word.mul p.col g.tileSize
  let top ← Word.mul p.row g.tileSize
  let right ← g.edge p.col
  let bottom ← g.edge p.row
  return ⟨left, top, right, bottom⟩

/-- The box of a tile of the grid. -/
def tileBox? (g : WordGrid) (t : Tile) : Except Fault (Option WordBox) := do
  match ← g.locate? t with
  | some p => return some (← g.placeBox p)
  | none => return none

/-- Merges the boxes of tiles into a box; ends at the first tile that the grid lacks. -/
def mergeTiles (g : WordGrid) : WordBox → List Tile → Except Fault (Option WordBox)
  | box, [] => return some box
  | box, t :: ts => do
    match ← g.tileBox? t with
    | some b => g.mergeTiles (box.merge b) ts
    | none => return none

/-- The merged box of all tiles of an address, if the grid has them all. -/
def addressBox? (g : WordGrid) (a : Address) : Except Fault (Option WordBox) := do
  match ← g.tileBox? a.first with
  | some box => g.mergeTiles box a.others
  | none => return none

end WordGrid

/-! ## The check of a design -/

/-- Why a check breaks off without a verdict. -/
inductive CheckFault where
  /-- An operation on words has no result. -/
  | arithmetic (fault : Fault)
  /-- There is no such bit in the set. -/
  | noSuchBit
  deriving DecidableEq, Repr

/-- A computation on words within a check. -/
def onWords {α : Type} (x : Except Fault α) : Except CheckFault α := x.mapError .arithmetic

/-- One bit for each tile, which is set when the tile is claimed. -/
abbrev TileBits := Array Bool

/-- Sets a bit, and says whether it was set before. -/
def TileBits.claim (bits : TileBits) (i : Nat) : Except CheckFault (Bool × TileBits) :=
  if h : i < bits.size then .ok (bits[i], bits.set i true h) else .error .noSuchBit

/-- Running bounds of rows and columns. -/
structure WordSpan where
  top : Word
  bottom : Word
  left : Word
  right : Word
  deriving DecidableEq, Repr

namespace WordSpan

/-- The bounds before any place is taken up. -/
def seed : WordSpan := ⟨4294967295, 0, 4294967295, 0⟩

/-- The span that the words stand for. -/
def toSpan (s : WordSpan) : Span := ⟨s.top.toNat, s.bottom.toNat, s.left.toNat, s.right.toNat⟩

/-- The bounds with one more place. -/
def insert (s : WordSpan) (p : WordPlace) : WordSpan :=
  ⟨min s.top p.row, max s.bottom p.row, min s.left p.col, max s.right p.col⟩

/-- The number of places between the bounds. -/
def area (s : WordSpan) : Except Fault Word := do
  let height ← Word.sub s.bottom s.top
  let rows ← Word.add height 1
  let width ← Word.sub s.right s.left
  let cols ← Word.add width 1
  Word.mul rows cols

end WordSpan

/-- How far the check of an address has come. -/
structure WordClaim where
  bits : TileBits
  span : WordSpan
  deriving DecidableEq, Repr

namespace WordGrid

/-- A bit for each tile, none of them set. -/
def unclaimed (g : WordGrid) : Except CheckFault TileBits := do
  let count ← onWords g.tileCount
  return Array.replicate count.toNat false

/-- Claims one more tile of an address, unless the grid lacks it or it is claimed. -/
def claimTile? (g : WordGrid) (c : WordClaim) (t : Tile) :
    Except CheckFault (Option WordClaim) := do
  match ← onWords (g.locate? t) with
  | none => return none
  | some p =>
    let (claimed, bits) ← c.bits.claim t.toNat
    if claimed then return none
    return some ⟨bits, c.span.insert p⟩

/-- Claims tiles of an address one after another. -/
def claimTiles? (g : WordGrid) : WordClaim → List Tile → Except CheckFault (Option WordClaim)
  | c, [] => return some c
  | c, t :: ts => do
    match ← g.claimTile? c t with
    | some c => g.claimTiles? c ts
    | none => return none

/-- Claims the tiles of an address whose number equals the area that they span. -/
def claimAddress? (g : WordGrid) (bits : TileBits) (a : Address) :
    Except CheckFault (Option TileBits) := do
  match ← g.claimTiles? ⟨bits, .seed⟩ a.tiles with
  | none => return none
  | some c =>
    let area ← onWords c.span.area
    if area.toNat = a.tiles.length then return some c.bits else return none

/-- Claims the written addresses in order; the first one that fails is the error. -/
def claimAll (g : WordGrid) : TileBits → Design → Except CheckFault (Except CoverError TileBits)
  | bits, [] => return .ok bits
  | bits, text :: rest => do
    match Address.read? text with
    | none => return .error (.badAddress text)
    | some a =>
      match ← g.claimAddress? bits a with
      | some bits => g.claimAll bits rest
      | none => return .error (.badAddress text)

/-- Accepts the partitions of a grid. Where tiles are left over the error names the whole design. -/
def check (g : WordGrid) (design : Design) : Except CheckFault (Except CoverError Unit) := do
  let bits ← g.unclaimed
  match ← g.claimAll bits design with
  | .error e => return .error e
  | .ok bits =>
    if bits.all id then return .ok ()
    else return .error (.badAddress (String.intercalate " " design))

end WordGrid

end CoverMosaic
