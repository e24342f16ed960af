import CoverMosaic.Grid
/-!
# Designs and partitions of a grid

A design is an ordered list of tile addresses. For each dimension from two to five the catalog
has some; the first of them is always the plain one, a cell for every tile. A caller takes the
plain design, one by its number, or a list of addresses of its own.

A design is a partition when every tile of the grid is in exactly one address and the tiles of
each address fill a rectangle of rows and columns. `Partitions` says so outright; `Design.check`
decides it in one pass, and names the first address that breaks it. The check claims the tiles
one by one and compares their number with the area of the rows and columns that they span.

| here | there |
| --- | --- |
| `Catalog.designs?`, `Catalog.design` | `LayoutCatalog`: `designs`, `design` |
| `Layout`, `Layout.addresses`         | `LayoutSelection`, `addresses` |
| `Design.check`                       | `verify_partition`, with the claimed tiles as a list in place of a bit set |
| `claim?`, `Address.span?`            | its inner loop: the tiles claimed, and the running bounds |
| `Catalog.check`                      | `verify` |
-/
namespace CoverMosaic

/-! ## The catalog -/

/-- The addresses of the cells of a cover, in the order in which they are filled. -/
abbrev Design := List String

namespace Catalog

/-- A cell for every tile, in the order of their numbers. -/
def plain (dimension : Nat) : Design := (List.range (dimension * dimension)).map Text.Decimal.text

/-- The designs for a dimension, if there are any. -/
def designs? : Nat → Option (List Design)
  | 2 => some [plain 2]
  | 3 => some
    [plain 3,
     ["0,1,3,4", "2", "5", "6", "7", "8"],
     ["0", "1", "2", "3", "4,5,7,8", "6"]]
  | 4 => some
    [plain 4,
     ["5,6,9,10", "0", "1", "2", "3", "4", "7", "8", "11", "12", "13", "14", "15"],
     ["0,1,4,5", "10,11,14,15", "2", "3", "6", "7", "8", "9", "12", "13"],
     ["0,1,2,4,5,6,8,9,10", "3", "7", "11", "12", "13", "14", "15"]]
  | 5 => some
    [plain 5,
     ["0,1,2,5,6,7,10,11,12", "3,4,8,9", "15,16,20,21", "13", "14", "17", "18", "19", "22", "23",
      "24"]]
  | _ => none

/-- The design of a number for a dimension. -/
def design (dimension number : Nat) : Except CoverError Design :=
  match (designs? dimension).bind (·[number]?) with
  | some design => .ok design
  | none => .error (.unknownDesign dimension number)

end Catalog

/-- How a caller chooses the addresses of a cover. -/
inductive Layout where
  /-- The plain design of the dimension. -/
  | plain
  /-- The design of that number in the catalog. -/
  | numbered (number : Nat)
  /-- The caller's own addresses, taken as they are. -/
  | listed (addresses : Design)
  deriving DecidableEq, Repr

/-- The addresses that a choice stands for. -/
def Layout.addresses (dimension : Nat) : Layout → Except CoverError Design
  | .plain => Catalog.design dimension 0
  | .numbered number => Catalog.design dimension number
  | .listed addresses => .ok addresses

theorem Catalog.design_eq_ok_iff {dimension number : Nat} {d : Design} :
    design dimension number = .ok d ↔ (designs? dimension).bind (·[number]?) = some d := by
  unfold design
  cases (designs? dimension).bind (·[number]?) <;> simp

/-! ## The property -/

/-- The tile numbers of an address. -/
def Address.numbers (a : Address) : List Nat := a.tiles.map UInt32.toNat

/-- The numbers are those of the tiles in a range of rows and a range of columns. -/
def FillsRectangle (dimension : Nat) (numbers : List Nat) : Prop :=
  ∃ top bottom left right, bottom < dimension ∧ right < dimension ∧
    ∀ n, n ∈ numbers ↔
      ∃ row col, (top ≤ row ∧ row ≤ bottom) ∧ (left ≤ col ∧ col ≤ right) ∧
        n = row * dimension + col

/-- Every tile of the grid is in one address, once, and each address fills a rectangle. -/
def Partitions (dimension : Nat) (addresses : List Address) : Prop :=
  (addresses.flatMap Address.numbers).Perm (List.range (dimension * dimension)) ∧
    ∀ a ∈ addresses, FillsRectangle dimension a.numbers

/-! ## The check -/

/-- The least and greatest row and column of some places. -/
structure Span where
  top : Nat
  bottom : Nat
  left : Nat
  right : Nat
  deriving DecidableEq, Repr

namespace Span

/-- The span of one place. -/
def single (p : Place) : Span := ⟨p.row, p.row, p.col, p.col⟩

/-- The span with one more place. -/
def insert (s : Span) (p : Place) : Span :=
  ⟨min s.top p.row, max s.bottom p.row, min s.left p.col, max s.right p.col⟩

/-- The number of places between the bounds. -/
def area (s : Span) : Nat := (s.bottom - s.top + 1) * (s.right - s.left + 1)

end Span

/-- Adds tiles to those claimed so far; fails at one that the grid lacks or that is claimed. -/
def claim? (g : Grid) : List Tile → List Tile → Option (List Tile)
  | claimed, [] => some claimed
  | claimed, t :: ts =>
    if t.toNat < g.tileCount ∧ t ∉ claimed then claim? g (t :: claimed) ts else none

/-- The rows and columns that the tiles of an address span. -/
def Address.span? (g : Grid) (a : Address) : Option Span := do
  let p ← g.locate? a.first
  let ps ← a.others.mapM g.locate?
  return ps.foldl Span.insert (Span.single p)

/-- Claims the tiles of an address whose number equals the area that they span. -/
def claimAddress? (g : Grid) (claimed : List Tile) (a : Address) : Option (List Tile) := do
  let claimed ← claim? g claimed a.tiles
  let span ← a.span? g
  if span.area = a.tiles.length then some claimed else none

/-- Claims the written addresses in order; the first one that fails is the error. -/
def claimAll (g : Grid) : List Tile → Design → Except CoverError (List Tile)
  | claimed, [] => .ok claimed
  | claimed, text :: rest =>
    match (Address.read? text).bind (claimAddress? g claimed) with
    | some claimed => claimAll g claimed rest
    | none => .error (.badAddress text)

/-- Accepts the partitions of a grid. Where tiles are left over the error names the whole design. -/
def Design.check (dimension : Nat) (design : Design) : Except CoverError Unit := do
  let g : Grid := ⟨dimension, dimension⟩
  let claimed ← claimAll g [] design
  if claimed.length = g.tileCount then .ok ()
  else .error (.badAddress (String.intercalate " " design))

/-- Checks every design of the catalog. -/
def Catalog.check : Except CoverError Unit :=
  (List.range' Limits.minDimension (Limits.maxDimension + 1 - Limits.minDimension)).forM
    fun dimension => ((designs? dimension).getD []).forM (Design.check dimension)

end CoverMosaic
