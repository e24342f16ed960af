import CoverMosaic.Words
import CoverMosaic.Proofs.Composition
/-!
# Grids fit into words: `GridGeometry`

Worked out on words of thirty-two bits, a grid of at most 65535 tiles on a side meets no fault: the
number of its tiles is a word, and the start of a row or column that follows one of the grid is no
further than the side of the image (`edge_gives`). Function by function the words stand for what the
grid is worked out to be on natural numbers (`tileBox_gives`, `addressBox_gives`).

Every box that is found has its corners in order and inside the image (`spanBox_inside`), so that
its extent is no fault either.

Main result `ofGrid_faultless`.
-/
namespace CoverMosaic

/-! ## Boxes inside the image -/

/-- The corners do not stand in the wrong order, nor past the last pixel of an image. -/
structure Box.Inside (side : Nat) (b : Box) : Prop where
  left_le_right : b.near.x ≤ b.far.x
  right_le : b.far.x ≤ side - 1
  top_le_bottom : b.near.y ≤ b.far.y
  bottom_le : b.far.y ≤ side - 1

namespace Grid

variable {g : Grid}

theorem spanBox_inside (hs : 0 < g.imageSize) {s : Span} (hw : s.In g.dimension) :
    (g.spanBox s).Inside g.imageSize := by
  obtain ⟨hx, hy⟩ := spanBox_upright hs hw
  exact ⟨hx, edge_le_last hs hw.2.2, hy, edge_le_last hs hw.1.2⟩

theorem tileBox?_inside (hs : 0 < g.imageSize) {t : Tile} {b : Box} (h : g.tileBox? t = some b) :
    b.Inside g.imageSize := by
  obtain ⟨ht, rfl⟩ := tileBox?_eq_some_iff.1 h
  exact spanBox_inside hs (Span.single_in (Place.ofNumber_in ht))

theorem addressBox?_inside (hs : 0 < g.imageSize) {a : Address} {b : Box}
    (h : g.addressBox? a = some b) : b.Inside g.imageSize := by
  obtain ⟨hhas, rfl⟩ := (addressBox?_eq_some_iff hs).1 h
  exact spanBox_inside hs (a.span_in hhas)

theorem addressBox?_eq_none_iff (hs : 0 < g.imageSize) {a : Address} :
    g.addressBox? a = none ↔ ∃ t ∈ a.tiles, g.tileCount ≤ t.toNat := by
  rw [Option.eq_none_iff_forall_ne_some]
  simp only [ne_eq, addressBox?_eq_some_iff hs, Has, Address.numbers]
  simp

end Grid

/-! ## Words that stand for a grid -/

namespace WordGrid

/-- The words are those of a grid with few enough tiles and at least one pixel. -/
structure Fits (w : WordGrid) (g : Grid) : Prop where
  dimension : w.dimension.toNat = g.dimension
  imageSize : w.imageSize.toNat = g.imageSize
  tileSize : w.tileSize.toNat = g.tileSize
  few_tiles : g.dimension ≤ 65535
  some_pixel : 1 ≤ g.imageSize

/-- The words count the tiles of a grid with few enough of them, which may have no pixel. -/
structure Counts (w : WordGrid) (g : Grid) : Prop where
  dimension : w.dimension.toNat = g.dimension
  few_tiles : g.dimension ≤ 65535

theorem Fits.counts {w : WordGrid} {g : Grid} (h : w.Fits g) : w.Counts g :=
  ⟨h.dimension, h.few_tiles⟩

theorem tileSide_gives (d s : Word) :
    Gives UInt32.toNat (tileSide d s) (Grid.mk d.toNat s.toNat).tileSize := by
  unfold tileSide
  by_cases hd : d = 0
  · subst hd
    rw [if_pos rfl]
    exact ⟨0, rfl, by simp [Grid.tileSize]⟩
  · rw [if_neg hd]
    refine Word.div_gives (Nat.pos_of_ne_zero ?_)
    intro hzero
    exact hd (UInt32.toNat_inj.1 hzero)

theorem exists_ofGrid {g : Grid} (hd : g.dimension ≤ 65535) (hword : g.imageSize < UInt32.size) :
    ∃ w, ofGrid g = .ok w ∧ w.Counts g ∧ w.imageSize.toNat = g.imageSize ∧
      w.tileSize.toNat = g.tileSize := by
  have hdword : g.dimension < UInt32.size := by simp only [UInt32.size]; omega
  obtain ⟨dimension, hdim, hdim'⟩ := Word.ofExact_gives hdword
  obtain ⟨imageSize, hside, hside'⟩ := Word.ofExact_gives hword
  obtain ⟨tileSize, htile, htile'⟩ := tileSide_gives dimension imageSize
  rw [hdim', hside'] at htile'
  refine ⟨⟨dimension, imageSize, tileSize⟩, ?_, ⟨hdim', hd⟩, hside', htile'⟩
  simp [ofGrid, hdim, hside, htile, bind, Except.bind, pure, Except.pure]

theorem ofGrid_fits {g : Grid} (hd : g.dimension ≤ 65535) (hs : 1 ≤ g.imageSize)
    (hword : g.imageSize < UInt32.size) : ∃ w, ofGrid g = .ok w ∧ w.Fits g := by
  obtain ⟨w, hw, hcounts, hside, htile⟩ := exists_ofGrid hd hword
  exact ⟨w, hw, hcounts.dimension, hside, htile, hd, hs⟩

section
variable {w : WordGrid} {g : Grid}

theorem tileCount_gives (h : w.Counts g) : Gives UInt32.toNat w.tileCount g.tileCount := by
  have hle : g.dimension * g.dimension ≤ 65535 * 65535 := Nat.mul_le_mul h.few_tiles h.few_tiles
  rw [Grid.tileCount, ← h.dimension]
  refine Word.mul_gives ?_
  rw [h.dimension]
  simp only [UInt32.size]
  omega

/-- Rows and columns are counted in words only for tiles of the grid, which has some then. -/
theorem locate_gives (h : w.Counts g) (t : Tile) :
    Gives (Option.map WordPlace.toPlace) (w.locate? t) (g.locate? t) := by
  refine (tileCount_gives h).bind fun count hcount => ?_
  by_cases ht : t.toNat < g.tileCount
  · have hlt : ¬ count ≤ t := by rw [UInt32.le_iff_toNat_le]; omega
    have hd : 0 < g.dimension := Nat.pos_of_mul_pos_left (Nat.zero_lt_of_lt ht)
    rw [if_neg hlt, Grid.locate?, if_pos ht, ← h.dimension]
    rw [← h.dimension] at hd
    refine (Word.div_gives hd).bind fun row hrow => ?_
    refine (Word.mod_gives hd).bind fun col hcol => ?_
    refine gives_pure ?_
    simp [WordPlace.toPlace, hrow, hcol]
  · have hle : count ≤ t := by rw [UInt32.le_iff_toNat_le]; omega
    rw [if_pos hle, Grid.locate?, if_neg ht]
    exact gives_pure rfl

theorem mul_tileSize_gives (h : w.Fits g) {k : Word} (hk : k.toNat ≤ g.dimension) :
    Gives UInt32.toNat (Word.mul k w.tileSize) (k.toNat * g.tileSize) := by
  have hle : k.toNat * g.tileSize ≤ g.imageSize := by
    calc k.toNat * g.tileSize ≤ g.dimension * g.tileSize := Nat.mul_le_mul_right _ hk
      _ ≤ g.imageSize := Nat.mul_div_le _ _
  have hlt := w.imageSize.toNat_lt
  rw [h.imageSize] at hlt
  rw [← h.tileSize]
  refine Word.mul_gives ?_
  rw [h.tileSize]
  simp only [UInt32.size]
  omega

theorem edge_gives (h : w.Fits g) {k : Word} (hk : k.toNat < g.dimension) :
    Gives UInt32.toNat (w.edge k) (g.edge k.toNat) := by
  have hfew := h.few_tiles
  have hadd : k.toNat + (1 : Word).toNat < UInt32.size := by simp [UInt32.size]; omega
  refine (Word.add_gives hadd).bind fun next hnext => ?_
  have hnext : next.toNat = k.toNat + 1 := by simpa using hnext
  refine (mul_tileSize_gives h (by omega)).bind fun inner hinner => ?_
  have hone : (1 : Word).toNat ≤ w.dimension.toNat := by rw [h.dimension]; simp; omega
  refine (Word.sub_gives hone).bind fun last hlast => ?_
  have hlast : last.toNat = g.dimension - 1 := by simpa [h.dimension] using hlast
  by_cases hk' : k = last
  · have hone : (1 : Word).toNat ≤ w.imageSize.toNat := by rw [h.imageSize]; exact h.some_pixel
    rw [if_pos hk', Grid.edge_outer (by rw [hk', hlast]; omega), ← h.imageSize]
    exact Word.sub_gives hone
  · have hne : k.toNat + 1 ≠ g.dimension := by
      intro heq
      exact hk' (UInt32.toNat_inj.1 (by omega))
    rw [if_neg hk', Grid.edge_inner hne, ← hnext]
    exact gives_pure hinner

theorem placeBox_gives (h : w.Fits g) {p : WordPlace} (hp : p.toPlace.In g.dimension) :
    Gives WordBox.toBox (w.placeBox p) (g.placeBox p.toPlace) := by
  obtain ⟨hrow, hcol⟩ := hp
  refine (mul_tileSize_gives h (Nat.le_of_lt hcol)).bind fun left hleft => ?_
  refine (mul_tileSize_gives h (Nat.le_of_lt hrow)).bind fun top htop => ?_
  refine (edge_gives h hcol).bind fun right hright => ?_
  refine (edge_gives h hrow).bind fun bottom hbottom => ?_
  refine gives_pure ?_
  simp [WordBox.toBox, Grid.placeBox, WordPlace.toPlace, hleft, htop, hright, hbottom]

theorem tileBox_gives (h : w.Fits g) (t : Tile) :
    Gives (Option.map WordBox.toBox) (w.tileBox? t) (g.tileBox? t) := by
  refine (locate_gives h.counts t).bind fun found hfound => ?_
  rw [Grid.tileBox?, ← hfound]
  cases found with
  | none => exact gives_pure rfl
  | some p =>
    obtain ⟨ht, hplace⟩ := Grid.locate?_eq_some_iff.1 hfound.symm
    have hin : p.toPlace.In g.dimension := by rw [hplace]; exact Place.ofNumber_in ht
    refine (placeBox_gives h hin).bind fun box hbox => ?_
    exact gives_pure (congrArg some hbox)

theorem mergeTiles_gives (h : w.Fits g) : ∀ (ts : List Tile) (box : WordBox),
    Gives (Option.map WordBox.toBox) (w.mergeTiles box ts)
      ((ts.mapM g.tileBox?).map fun boxes => boxes.foldl Box.merge box.toBox)
  | [], _ => gives_pure rfl
  | t :: ts, box => by
    refine (tileBox_gives h t).bind fun found hfound => ?_
    rw [List.mapM_cons, ← hfound]
    cases found with
    | none => exact gives_pure rfl
    | some b =>
      have ih := mergeTiles_gives h ts (box.merge b)
      rw [WordBox.toBox_merge] at ih
      cases hts : ts.mapM g.tileBox? <;> simpa [hts] using ih

theorem addressBox_gives (h : w.Fits g) (a : Address) :
    Gives (Option.map WordBox.toBox) (w.addressBox? a) (g.addressBox? a) := by
  refine (tileBox_gives h a.first).bind fun found hfound => ?_
  rw [Grid.addressBox?, ← hfound]
  cases found with
  | none => exact gives_pure rfl
  | some box =>
    have hmerge := mergeTiles_gives h a.others box
    cases hts : a.others.mapM g.tileBox? <;> simpa [hts] using hmerge

/-! ## No fault -/

/-- The box of a tile or of an address. -/
def Answers (w : WordGrid) (b : WordBox) : Prop :=
  (∃ t, w.tileBox? t = .ok (some b)) ∨ ∃ a, w.addressBox? a = .ok (some b)

theorem inside_of_answers (h : w.Fits g) {b : WordBox} (hb : w.Answers b) :
    b.toBox.Inside g.imageSize := by
  rcases hb with ⟨t, hb⟩ | ⟨a, hb⟩
  · obtain ⟨found, hfound, hbox⟩ := tileBox_gives h t
    obtain rfl := Except.ok.inj (hb.symm.trans hfound)
    exact Grid.tileBox?_inside h.some_pixel hbox.symm
  · obtain ⟨found, hfound, hbox⟩ := addressBox_gives h a
    obtain rfl := Except.ok.inj (hb.symm.trans hfound)
    exact Grid.addressBox?_inside h.some_pixel hbox.symm

theorem addressBox_eq_none_iff (h : w.Fits g) (a : Address) :
    w.addressBox? a = .ok none ↔ ∃ t ∈ a.tiles, g.tileCount ≤ t.toNat := by
  rw [← Grid.addressBox?_eq_none_iff h.some_pixel]
  obtain ⟨found, hfound, hbox⟩ := addressBox_gives h a
  rw [hfound, ← hbox]
  simp

end

/-- Worked out on words, the grid meets no fault. What it comes to stands for what the grid is on
natural numbers, an address is without a box only for a tile that the grid lacks, and the boxes
that are found lie inside the image and have their extents. -/
structure Faultless (w : WordGrid) (g : Grid) : Prop where
  tileCount : Gives UInt32.toNat w.tileCount g.tileCount
  locate : ∀ t, Gives (Option.map WordPlace.toPlace) (w.locate? t) (g.locate? t)
  tileBox : ∀ t, Gives (Option.map WordBox.toBox) (w.tileBox? t) (g.tileBox? t)
  addressBox : ∀ a, Gives (Option.map WordBox.toBox) (w.addressBox? a) (g.addressBox? a)
  no_box : ∀ a, w.addressBox? a = .ok none ↔ ∃ t ∈ a.tiles, g.tileCount ≤ t.toNat
  inside : ∀ b, w.Answers b → b.toBox.Inside g.imageSize
  width : ∀ b, w.Answers b → Gives UInt32.toNat b.width b.toBox.width
  height : ∀ b, w.Answers b → Gives UInt32.toNat b.height b.toBox.height

theorem Fits.faultless {w : WordGrid} {g : Grid} (h : w.Fits g) : w.Faultless g where
  tileCount := tileCount_gives h.counts
  locate := locate_gives h.counts
  tileBox := tileBox_gives h
  addressBox := addressBox_gives h
  no_box := addressBox_eq_none_iff h
  inside _ hb := inside_of_answers h hb
  width _ hb := Word.sub_gives (inside_of_answers h hb).left_le_right
  height _ hb := Word.sub_gives (inside_of_answers h hb).top_le_bottom

/-- **Grids fit into words.** No operation on words fails for a grid of at most 65535 tiles on a
side and an image of at least one pixel, also where the image has fewer pixels than the grid has
rows or where the grid has no tile at all. -/
theorem ofGrid_faultless {g : Grid} (hd : g.dimension ≤ 65535) (hs : 1 ≤ g.imageSize)
    (hword : g.imageSize < UInt32.size) : ∃ w, ofGrid g = .ok w ∧ w.Faultless g := by
  obtain ⟨w, hw, hfits⟩ := ofGrid_fits hd hs hword
  exact ⟨w, hw, hfits.faultless⟩

/-- The largest grid on the largest image, whose last row and column end at the largest word before
they are drawn back to the last pixel. -/
theorem ofGrid_faultless_largest :
    (Grid.mk 65535 4294967295).dimension ≤ 65535 ∧ 1 ≤ (Grid.mk 65535 4294967295).imageSize ∧
    (Grid.mk 65535 4294967295).imageSize < UInt32.size ∧
    65535 * (Grid.mk 65535 4294967295).tileSize + 1 = UInt32.size ∧
    ∃ w, ofGrid ⟨65535, 4294967295⟩ = .ok w ∧ w.Faultless ⟨65535, 4294967295⟩ :=
  ⟨by decide, by decide, by decide, by decide,
    ofGrid_faultless (by decide) (by decide) (by decide)⟩

/-- With one tile more on a side the number of tiles is no word. -/
example : (ofGrid ⟨65536, 65536⟩ >>= tileCount) = .error .overflow := by decide

/-- An image without a pixel has no last one. -/
example : (ofGrid ⟨1, 0⟩ >>= (·.tileBox? 0)) = .error .underflow := by decide

end WordGrid

/-- The grid of a composer is far from the bounds. -/
theorem Composer.grid_faultless (c : Composer) :
    ∃ w, WordGrid.ofGrid c.grid = .ok w ∧ w.Faultless c.grid := by
  obtain ⟨⟨-, hmax⟩, -, hhigh⟩ := c.in_range
  simp only [Limits.maxDimension, Limits.maxImageSize] at hmax hhigh
  have hd : c.grid.dimension ≤ 65535 := Nat.le_trans hmax (by decide)
  have hs : 1 ≤ c.grid.imageSize := c.imageSize_pos
  have hword : c.grid.imageSize < UInt32.size := Nat.lt_of_le_of_lt hhigh (by decide)
  obtain ⟨w, hw, hfits⟩ := WordGrid.ofGrid_fits hd hs hword
  exact ⟨w, hw, hfits.faultless⟩

end CoverMosaic
