import CoverMosaic.Proofs.Partition
/-!
# From tiles to pixels: `tile_position` and `address_bounds`

Rows and columns are alike, so what holds along one side of the image is said once, of lanes. Lane
`k` starts at `k * tileSize` and ends at `edge k`. The lanes lie end to end and fill the side short
of its last pixel, also where tiles have no extent and only the last lane has one (`start_le_iff`,
`lt_edge_iff`): every position belongs to one lane, which `lane` computes.

The box of an address is that of its span (`addressBox?_eq_some_iff`), since merging boxes is
taking up places. It therefore paints the pixels whose owner is among its tiles, and a partition
of the tiles is one of the pixels (`dividesSquare`).

Main results `tileBox?_owner` for single tiles, and `check_ok_divides_square` for designs.
-/
namespace CoverMosaic

namespace Grid

variable {g : Grid} {j k x : Nat}

/-! ## Lanes -/

/-- The row or column that owns the pixels at a position along one side. -/
def lane (g : Grid) (x : Nat) : Nat :=
  if g.tileSize = 0 then g.dimension - 1 else min (x / g.tileSize) (g.dimension - 1)

theorem lane_lt (hd : 0 < g.dimension) (x : Nat) : g.lane x < g.dimension := by
  unfold lane
  split <;> omega

theorem lane_eq (hT : 0 < g.tileSize) (x : Nat) :
    g.lane x = min (x / g.tileSize) (g.dimension - 1) := if_neg (Nat.ne_of_gt hT)

theorem edge_inner (hk : k + 1 ≠ g.dimension) : g.edge k = (k + 1) * g.tileSize := if_neg hk

theorem edge_outer (hk : k + 1 = g.dimension) : g.edge k = g.imageSize - 1 := if_pos hk

theorem end_le_imageSize (hk : k < g.dimension) : (k + 1) * g.tileSize ≤ g.imageSize := by
  calc (k + 1) * g.tileSize ≤ g.dimension * g.tileSize := Nat.mul_le_mul_right _ hk
    _ ≤ g.imageSize := Nat.mul_div_le _ _

theorem start_le_last (hs : 0 < g.imageSize) (hk : k < g.dimension) :
    k * g.tileSize ≤ g.imageSize - 1 := by
  have hend := end_le_imageSize hk
  rw [Nat.add_mul, Nat.one_mul] at hend
  by_cases hT : g.tileSize = 0
  · rw [hT, Nat.mul_zero]; exact Nat.zero_le _
  · omega

theorem start_le_edge (hs : 0 < g.imageSize) (hk : k < g.dimension) :
    k * g.tileSize ≤ g.edge k := by
  by_cases hlast : k + 1 = g.dimension
  · rw [edge_outer hlast]; exact start_le_last hs hk
  · rw [edge_inner hlast]; exact Nat.mul_le_mul_right _ (Nat.le_succ k)

theorem start_lt_edge (hT : 2 ≤ g.tileSize) (hk : k < g.dimension) :
    k * g.tileSize < g.edge k := by
  have hend := end_le_imageSize hk
  rw [Nat.add_mul, Nat.one_mul] at hend
  by_cases hlast : k + 1 = g.dimension
  · rw [edge_outer hlast]; omega
  · rw [edge_inner hlast, Nat.add_mul, Nat.one_mul]; omega

theorem edge_le_last (hs : 0 < g.imageSize) (hk : k < g.dimension) :
    g.edge k ≤ g.imageSize - 1 := by
  by_cases hlast : k + 1 = g.dimension
  · exact Nat.le_of_eq (edge_outer hlast)
  · rw [edge_inner hlast]; exact start_le_last hs (by omega)

theorem edge_le_edge (hs : 0 < g.imageSize) (hjk : j ≤ k) (hk : k < g.dimension) :
    g.edge j ≤ g.edge k := by
  by_cases hlast : k + 1 = g.dimension
  · rw [edge_outer hlast]; exact edge_le_last hs (by omega)
  · rw [edge_inner hlast, edge_inner (by omega)]
    exact Nat.mul_le_mul_right _ (by omega)

theorem start_le_iff (hk : k < g.dimension) : k * g.tileSize ≤ x ↔ k ≤ g.lane x := by
  unfold lane
  split
  · rename_i hT; rw [hT]; omega
  · rename_i hT
    rw [Nat.le_min, Nat.le_div_iff_mul_le (Nat.pos_of_ne_zero hT)]
    omega

theorem lt_edge_iff (hs : 0 < g.imageSize) (hk : k < g.dimension) :
    x < g.edge k ↔ g.lane x ≤ k ∧ x < g.imageSize - 1 := by
  have hlane := lane_lt (Nat.zero_lt_of_lt hk) x
  by_cases hlast : k + 1 = g.dimension
  · rw [edge_outer hlast]; omega
  · have hnext : k + 1 < g.dimension := by omega
    have hle := start_le_last hs hnext
    rw [edge_inner hlast, ← Nat.not_le, start_le_iff hnext]
    constructor
    · intro h
      have hlt : x < (k + 1) * g.tileSize := Nat.not_le.1 (mt (start_le_iff hnext).1 h)
      omega
    · rintro ⟨h, _⟩; omega

theorem le_edge_lane (hd : 0 < g.dimension) (hx : x < g.imageSize) : x ≤ g.edge (g.lane x) := by
  have hlane := lane_lt hd x
  by_cases hlt : x < g.imageSize - 1
  · exact Nat.le_of_lt ((lt_edge_iff (by omega) hlane).2 ⟨Nat.le_refl _, hlt⟩)
  · -- the last position belongs to the last lane, which ends there
    have hle := start_le_last (k := g.dimension - 1) (Nat.zero_lt_of_lt hx) (by omega)
    have := (start_le_iff (x := x) (by omega)).1 (Nat.le_trans hle (by omega))
    rw [edge_outer (by omega)]
    omega

/-! ## Boxes of spans -/

/-- The box from the first to the last row and column of a span. -/
def spanBox (g : Grid) (s : Span) : Box where
  near := ⟨s.left * g.tileSize, s.top * g.tileSize⟩
  far := ⟨g.edge s.right, g.edge s.bottom⟩

theorem spanBox_upright (hs : 0 < g.imageSize) {s : Span} (hw : s.In g.dimension) :
    (g.spanBox s).Upright := by
  obtain ⟨⟨hrow, hbottom⟩, hcol, hright⟩ := hw
  constructor
  · exact Nat.le_trans (Nat.mul_le_mul_right _ hcol) (start_le_edge hs hright)
  · exact Nat.le_trans (Nat.mul_le_mul_right _ hrow) (start_le_edge hs hbottom)

theorem min_start (hs : 0 < g.imageSize) (hk : k < g.dimension) :
    min (min (j * g.tileSize) (k * g.tileSize)) (g.edge k) = min j k * g.tileSize := by
  have hle := start_le_edge hs hk
  rcases Nat.le_total j k with hjk | hjk
  · have := Nat.mul_le_mul_right g.tileSize hjk
    rw [Nat.min_eq_left hjk]; omega
  · have := Nat.mul_le_mul_right g.tileSize hjk
    rw [Nat.min_eq_right hjk]; omega

theorem max_edge (hs : 0 < g.imageSize) (hj : j < g.dimension) (hk : k < g.dimension) :
    max (max (g.edge j) (k * g.tileSize)) (g.edge k) = g.edge (max j k) := by
  have hle := start_le_edge hs hk
  rcases Nat.le_total j k with hjk | hjk
  · have := edge_le_edge hs hjk hk
    rw [Nat.max_eq_right hjk]; omega
  · have := edge_le_edge hs hjk hj
    rw [Nat.max_eq_left hjk]; omega

theorem spanBox_merge (hs : 0 < g.imageSize) {s : Span} {p : Place} (hbottom : s.bottom < g.dimension)
    (hright : s.right < g.dimension) (hp : p.In g.dimension) :
    (g.spanBox s).merge (g.placeBox p) = g.spanBox (s.insert p) := by
  simp only [Box.merge, spanBox, placeBox, Span.insert]
  rw [min_start hs hp.1, min_start hs hp.2, max_edge hs hbottom hp.1, max_edge hs hright hp.2]

theorem foldl_merge (hs : 0 < g.imageSize) : ∀ (ps : List Place) (s : Span),
    s.bottom < g.dimension → s.right < g.dimension → (∀ p ∈ ps, p.In g.dimension) →
    (ps.map g.placeBox).foldl Box.merge (g.spanBox s) = g.spanBox (ps.foldl Span.insert s)
  | [], _, _, _, _ => rfl
  | p :: ps, s, hbottom, hright, hps => by
    obtain ⟨hp, hps⟩ := List.forall_mem_cons.1 hps
    rw [List.map_cons, List.foldl_cons, List.foldl_cons, spanBox_merge hs hbottom hright hp]
    exact foldl_merge hs ps (s.insert p) (Nat.max_lt.2 ⟨hbottom, hp.1⟩)
      (Nat.max_lt.2 ⟨hright, hp.2⟩) hps

theorem tileBox?_eq_some_iff {t : Tile} {b : Box} :
    g.tileBox? t = some b ↔
      t.toNat < g.tileCount ∧ b = g.placeBox (Place.ofNumber g.dimension t.toNat) := by
  simp only [tileBox?, Option.map_eq_some_iff, locate?_eq_some_iff]
  constructor
  · rintro ⟨_, ⟨ht, rfl⟩, rfl⟩; exact ⟨ht, rfl⟩
  · rintro ⟨ht, rfl⟩; exact ⟨_, ⟨ht, rfl⟩, rfl⟩

/-- **The box of an address is the box of its span.** -/
theorem addressBox?_eq_some_iff (hs : 0 < g.imageSize) {a : Address} {b : Box} :
    g.addressBox? a = some b ↔ g.Has a ∧ b = g.spanBox (a.span g.dimension) := by
  -- the tiles after the first are read in one traversal and then merged into the box so far
  have hall (bs : List Box) : a.others.mapM g.tileBox? = some bs ↔
      (∀ t ∈ a.others, t.toNat < g.tileCount) ∧
        bs = a.others.map fun t => g.placeBox (Place.ofNumber g.dimension t.toNat) :=
    mapM_eq_some_iff_map fun _ _ => tileBox?_eq_some_iff
  have hfold (hfirst : a.first.toNat < g.tileCount)
      (hothers : ∀ t ∈ a.others, t.toNat < g.tileCount) :
      (a.others.map fun t => g.placeBox (Place.ofNumber g.dimension t.toNat)).foldl Box.merge
        (g.placeBox (Place.ofNumber g.dimension a.first.toNat)) = g.spanBox (a.span g.dimension) := by
    have hin := Place.ofNumber_in hfirst
    have h := foldl_merge hs (a.others.map fun t => Place.ofNumber g.dimension t.toNat)
      (Span.single (Place.ofNumber g.dimension a.first.toNat)) hin.1 hin.2
      (List.forall_mem_map.2 fun t ht => Place.ofNumber_in (hothers t ht))
    rw [List.map_map] at h
    exact h
  simp only [addressBox?, Option.bind_eq_bind, Option.bind_eq_some_iff, tileBox?_eq_some_iff, hall]
  simp only [Has, Address.numbers_eq, List.forall_mem_cons, List.forall_mem_map]
  constructor
  · rintro ⟨_, ⟨hfirst, rfl⟩, _, ⟨hothers, rfl⟩, h⟩
    rw [hfold hfirst hothers] at h
    exact ⟨⟨hfirst, hothers⟩, (Option.some.inj h).symm⟩
  · rintro ⟨⟨hfirst, hothers⟩, rfl⟩
    exact ⟨_, ⟨hfirst, rfl⟩, _, ⟨hothers, rfl⟩, congrArg some (hfold hfirst hothers)⟩

theorem boxOfText_eq_ok_iff (hs : 0 < g.imageSize) {text : String} {b : Box} :
    g.boxOfText text = .ok b ↔
      ∃ a, Address.read? text = some a ∧ g.Has a ∧ b = g.spanBox (a.span g.dimension) := by
  simp only [boxOfText, bind_eq_ok_iff, ← addressBox?_eq_some_iff hs]
  constructor
  · rintro ⟨a, hread, hbox⟩
    refine ⟨a, ?_, ?_⟩
    · unfold Address.ofText at hread
      split at hread <;> cases hread
      assumption
    · split at hbox <;> cases hbox
      assumption
  · rintro ⟨a, hread, hbox⟩
    exact ⟨a, by rw [Address.ofText, hread], by rw [hbox]⟩

/-! ## Owners -/

/-- The place that owns a pixel. -/
def owner (g : Grid) (p : Pixel) : Place := ⟨g.lane p.y, g.lane p.x⟩

theorem owner_in (hd : 0 < g.dimension) (p : Pixel) : (g.owner p).In g.dimension :=
  ⟨lane_lt hd p.y, lane_lt hd p.x⟩

section
variable {s : Span} {p : Pixel}

theorem spanBox_paints_iff (hs : 0 < g.imageSize) (hw : s.In g.dimension) :
    (g.spanBox s).Paints p ↔
      s.Holds (g.owner p) ∧ p.x < g.imageSize - 1 ∧ p.y < g.imageSize - 1 := by
  obtain ⟨⟨hrow, hbottom⟩, hcol, hright⟩ := hw
  simp only [Box.Paints, spanBox, Span.Holds, owner]
  rw [start_le_iff (Nat.lt_of_le_of_lt hcol hright), start_le_iff (Nat.lt_of_le_of_lt hrow hbottom),
    lt_edge_iff hs hright, lt_edge_iff hs hbottom]
  constructor
  · rintro ⟨⟨hl, hr, hx⟩, ht, hb, hy⟩; exact ⟨⟨⟨ht, hb⟩, hl, hr⟩, hx, hy⟩
  · rintro ⟨⟨⟨ht, hb⟩, hl, hr⟩, hx, hy⟩; exact ⟨⟨hl, hr, hx⟩, ht, hb, hy⟩

/-- A place paints the pixels that it owns. -/
theorem placeBox_paints_iff (hs : 0 < g.imageSize) {q : Place} (hq : q.In g.dimension) :
    (g.placeBox q).Paints p ↔
      q = g.owner p ∧ p.x < g.imageSize - 1 ∧ p.y < g.imageSize - 1 := by
  have hspan := spanBox_paints_iff (p := p) hs (Span.single_in hq)
  have hheld : (Span.single q).Holds (g.owner p) ↔ q = g.owner p := by
    obtain ⟨row, col⟩ := q
    simp only [Span.Holds, Span.single, owner, Place.mk.injEq]
    omega
  rw [← hheld]
  exact hspan

/-- The tiles that paint a pixel are those with the number of its owner. -/
theorem tileBox?_paints_iff (hd : 0 < g.dimension) (hs : 0 < g.imageSize) {t : Tile} :
    (∃ b, g.tileBox? t = some b ∧ b.Paints p) ↔
      t.toNat = (g.owner p).number g.dimension ∧
        p.x < g.imageSize - 1 ∧ p.y < g.imageSize - 1 := by
  have hin := owner_in hd p
  simp only [tileBox?_eq_some_iff]
  constructor
  · rintro ⟨b, ⟨ht, rfl⟩, hp⟩
    obtain ⟨hplace, hpixel⟩ := (placeBox_paints_iff hs (Place.ofNumber_in ht)).1 hp
    exact ⟨by rw [← hplace, Place.number_ofNumber], hpixel⟩
  · rintro ⟨ht, hpixel⟩
    have hplace : Place.ofNumber g.dimension t.toNat = g.owner p := by
      rw [ht, Place.ofNumber_number hin.2]
    refine ⟨_, ⟨?_, rfl⟩, ?_⟩
    · rw [ht]
      exact Place.number_lt hin
    · rw [hplace]
      exact (placeBox_paints_iff hs hin).2 ⟨rfl, hpixel⟩

theorem spanBox_covers (hd : 0 < g.dimension) (hbottom : s.bottom < g.dimension)
    (hright : s.right < g.dimension) (h : s.Holds (g.owner p)) (hx : p.x < g.imageSize)
    (hy : p.y < g.imageSize) : (g.spanBox s).Covers p := by
  obtain ⟨⟨ht, hb⟩, hl, hr⟩ := h
  have hs : 0 < g.imageSize := Nat.zero_lt_of_lt hx
  simp only [owner] at ht hb hl hr
  refine ⟨⟨(start_le_iff (by omega)).2 hl, ?_⟩, (start_le_iff (by omega)).2 ht, ?_⟩
  · exact Nat.le_trans (le_edge_lane hd hx) (edge_le_edge hs hr hright)
  · exact Nat.le_trans (le_edge_lane hd hy) (edge_le_edge hs hb hbottom)

end

/-- **Every pixel has one owner.** Short of the last row and column of the image just one tile
paints a pixel. Its row and its column are the quotients by the side of a tile, except that the
last ones own all that is left over. -/
theorem tileBox?_owner {d s : Nat} (hd : 1 ≤ d) (hwords : d ≤ 65535) (hs : d ≤ s) {p : Pixel}
    (hx : p.x < s - 1) (hy : p.y < s - 1) :
    ∃ t : Tile, t.toNat = min (p.y / (s / d)) (d - 1) * d + min (p.x / (s / d)) (d - 1) ∧
      ∀ u : Tile, (∃ b, (Grid.mk d s).tileBox? u = some b ∧ b.Paints p) ↔ u = t := by
  have hside : 0 < (Grid.mk d s).imageSize := Nat.lt_of_lt_of_le hd hs
  have howner : (Grid.mk d s).owner p =
      ⟨min (p.y / (s / d)) (d - 1), min (p.x / (s / d)) (d - 1)⟩ := by
    have hT : 0 < (Grid.mk d s).tileSize := Nat.div_pos hs hd
    rw [owner, lane_eq hT, lane_eq hT]
    rfl
  have hlt : ((Grid.mk d s).owner p).number d < UInt32.size :=
    calc ((Grid.mk d s).owner p).number d < d * d := Place.number_lt (owner_in (g := ⟨d, s⟩) hd p)
      _ ≤ 65535 * 65535 := Nat.mul_le_mul hwords hwords
      _ < UInt32.size := by decide
  refine ⟨UInt32.ofNatLT _ hlt, ?_, fun u => ?_⟩
  · rw [UInt32.toNat_ofNatLT, howner, Place.number]
  · rw [tileBox?_paints_iff (g := ⟨d, s⟩) hd hside, ← UInt32.toNat_inj, UInt32.toNat_ofNatLT]
    constructor
    · intro h
      exact h.1
    · intro h
      exact ⟨h, hx, hy⟩

/-- A pixel in the remainder, where the quotient is past the last column. -/
theorem tileBox?_owner_remainder :
    (1 ≤ 3 ∧ 3 ≤ 65535 ∧ 3 ≤ 500 ∧ 498 < 500 - 1 ∧ 166 < 500 - 1) ∧ 498 / (500 / 3) = 3 ∧
    (Grid.mk 3 500).tileBox? 5 = some ⟨⟨332, 166⟩, ⟨499, 332⟩⟩ ∧
    ∀ u : Tile, (∃ b, (Grid.mk 3 500).tileBox? u = some b ∧ b.Paints ⟨498, 166⟩) ↔ u = 5 := by
  obtain ⟨t, ht, howner⟩ := tileBox?_owner (d := 3) (s := 500) (p := ⟨498, 166⟩)
    (by decide) (by decide) (by decide) (by decide) (by decide)
  obtain rfl : t = 5 := UInt32.toNat_inj.1 ht
  exact ⟨by decide, by decide, by decide, howner⟩

/-! ## Partitions -/

/-- The boxes of the spans of some addresses. -/
def boxes (g : Grid) (as : List Address) : List Box := as.map fun a => g.spanBox (a.span g.dimension)

end Grid

/-- The boxes paint every pixel of a square image short of its last row and column, none of them
twice, and cover the whole image. -/
structure DividesSquare (side : Nat) (boxes : List Box) : Prop where
  apart : boxes.Pairwise fun b c => ∀ p, ¬ (b.Paints p ∧ c.Paints p)
  paints : ∀ p, (∃ b ∈ boxes, b.Paints p) ↔ p.x < side - 1 ∧ p.y < side - 1
  covers : ∀ p, (∃ b ∈ boxes, b.Covers p) ↔ p.x < side ∧ p.y < side

namespace Partitions

variable {d : Nat} {as : List Address} {a : Address}

theorem lt (h : Partitions d as) (ha : a ∈ as) : ∀ n ∈ a.numbers, n < d * d := by
  intro n hn
  exact List.mem_range.1 (h.1.mem_iff.1 (List.mem_flatMap.2 ⟨a, ha, hn⟩))

theorem disjoint (h : Partitions d as) : as.Pairwise fun a b => ∀ n ∈ a.numbers, n ∉ b.numbers := by
  have hnd := List.nodup_flatMap.1 (h.1.nodup_iff.2 List.nodup_range)
  exact hnd.2.imp fun hdisj n hn hn' => hdisj hn hn'

theorem exists_mem (h : Partitions d as) {n : Nat} (hn : n < d * d) : ∃ a ∈ as, n ∈ a.numbers :=
  List.mem_flatMap.1 (h.1.mem_iff.2 (List.mem_range.2 hn))

theorem span_within (h : Partitions d as) (ha : a ∈ as) : (a.span d).In d :=
  (a.span_fits d).within (h.lt ha)

/-- The pixels that a box paints are those whose owner is among the tiles of the address. -/
theorem paints_iff {g : Grid} (h : Partitions g.dimension as) (hs : 0 < g.imageSize) (ha : a ∈ as)
    {p : Pixel} :
    (g.spanBox (a.span g.dimension)).Paints p ↔
      (g.owner p).number g.dimension ∈ a.numbers ∧ p.x < g.imageSize - 1 ∧ p.y < g.imageSize - 1 := by
  have hw := h.span_within ha
  have hd : 0 < g.dimension := Nat.zero_lt_of_lt hw.1.2
  rw [Grid.spanBox_paints_iff hs hw,
    Address.span_holds_iff (h.lt ha) (h.2 a ha) (Grid.owner_in hd p).2]

theorem dividesSquare {g : Grid} (h : Partitions g.dimension as) (hd : 0 < g.dimension)
    (hs : 0 < g.imageSize) : DividesSquare g.imageSize (g.boxes as) where
  apart := by
    rw [Grid.boxes, List.pairwise_map]
    refine h.disjoint.imp_of_mem fun {a b} ha hb hdisj p ⟨hpa, hpb⟩ => ?_
    exact hdisj _ ((h.paints_iff hs ha).1 hpa).1 ((h.paints_iff hs hb).1 hpb).1
  paints p := by
    constructor
    · rintro ⟨b, hb, hp⟩
      obtain ⟨a, ha, rfl⟩ := List.mem_map.1 hb
      exact ((h.paints_iff hs ha).1 hp).2
    · intro hp
      -- some address has the tile that owns the pixel
      obtain ⟨a, ha, hmem⟩ := h.exists_mem (Place.number_lt (Grid.owner_in hd p))
      exact ⟨_, List.mem_map_of_mem ha, (h.paints_iff hs ha).2 ⟨hmem, hp⟩⟩
  covers p := by
    constructor
    · rintro ⟨b, hb, hp⟩
      obtain ⟨a, ha, rfl⟩ := List.mem_map.1 hb
      have hw := h.span_within ha
      have hright := Grid.edge_le_last hs hw.2.2
      have hbottom := Grid.edge_le_last hs hw.1.2
      simp only [Box.Covers, Grid.spanBox] at hp
      omega
    · rintro ⟨hx, hy⟩
      obtain ⟨a, ha, hmem⟩ := h.exists_mem (Place.number_lt (Grid.owner_in hd p))
      have hw := h.span_within ha
      have hholds := (Address.span_holds_iff (h.lt ha) (h.2 a ha) (Grid.owner_in hd p).2).2 hmem
      exact ⟨_, List.mem_map_of_mem ha, Grid.spanBox_covers hd hw.1.2 hw.2.2 hholds hx hy⟩

/-- Every text of a partition has its box. -/
theorem forall₂_boxOfText {g : Grid} {design : Design} (h : Partitions g.dimension as)
    (hs : 0 < g.imageSize) (has : design.mapM Address.read? = some as) :
    List.Forall₂ (fun text b => g.boxOfText text = .ok b) design (g.boxes as) := by
  rw [Grid.boxes, List.forall₂_map_right_iff, List.forall₂_iff_zip]
  obtain ⟨hlen, hread⟩ := List.forall₂_iff_zip.1 (mapM_eq_some_iff.1 has)
  refine ⟨hlen, fun hmem => ?_⟩
  exact (Grid.boxOfText_eq_ok_iff hs).2 ⟨_, hread hmem, h.lt (List.of_mem_zip hmem).2, rfl⟩

end Partitions

/-- **Partitions of the tiles are partitions of the pixels.** When the check accepts a design, the
grid has a box for each of its texts, and these boxes divide the image of any size. -/
theorem check_ok_divides_square {d side : Nat} {design : Design} (hd : 1 ≤ d) (hs : 1 ≤ side)
    (h : Design.check d design = .ok ()) :
    ∃ boxes, List.Forall₂ (fun text b => (Grid.mk d side).boxOfText text = .ok b) design boxes ∧
      DividesSquare side boxes := by
  obtain ⟨as, has, hpart⟩ := Design.check_eq_ok_iff.1 h
  exact ⟨Grid.boxes ⟨d, side⟩ as, Partitions.forall₂_boxOfText (g := ⟨d, side⟩) hpart hs has,
    Partitions.dividesSquare (g := ⟨d, side⟩) hpart hd hs⟩

/-- An image that the tiles do not divide evenly. -/
theorem check_ok_divides_square_uneven :
    Design.check 3 ["0,1,3,4", "2", "5", "6", "7", "8"] = .ok () ∧
    ∃ boxes, List.Forall₂ (fun text b => (Grid.mk 3 500).boxOfText text = .ok b)
      ["0,1,3,4", "2", "5", "6", "7", "8"] boxes ∧ DividesSquare 500 boxes := by
  have h : Design.check 3 ["0,1,3,4", "2", "5", "6", "7", "8"] = .ok () := by decide
  exact ⟨h, check_ok_divides_square (by decide) (by decide) h⟩

end CoverMosaic
