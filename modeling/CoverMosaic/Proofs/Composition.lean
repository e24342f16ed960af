import CoverMosaic.Cover
import CoverMosaic.Proofs.Queue
/-!
# Composing on the designs of the catalog: `generate_from_caa_ids` and `verify`

Every design of the catalog is a partition (`Catalog.check_eq_ok`), so its boxes divide the image.
The images of a cover are images of some of these boxes, in their order (`fill_box_sublist`), and of
all of them when no cell can stay blank (`fill_box_eq`). Options that have been checked leave room
for tiles of at least two pixels, hence none of the boxes is empty (`boxes_roomy`).

Main result `compose_catalog`.
-/
namespace CoverMosaic

/-! ## Images and their boxes -/

/-- The box that an image fills. -/
def Image.box (i : Image) : Box := ⟨⟨i.left, i.top⟩, ⟨i.left + i.width, i.top + i.height⟩⟩

theorem Image.box_inBox {b : Box} (hb : b.Upright) (url : String) (c : Option Candidate) :
    (Image.inBox b url c).box = b := by
  obtain ⟨⟨x, y⟩, ⟨x', y'⟩⟩ := b
  obtain ⟨hx, hy⟩ := hb
  simp only [Image.box, Image.inBox, Box.width, Box.height] at *
  rw [Nat.add_sub_cancel' hx, Nat.add_sub_cancel' hy]

theorem Settled.image?_box {cell : Settled} {b : Box} {i : Image} (hb : b.Upright)
    (h : cell.image? b = some i) : i.box = b := by
  unfold Settled.image? at h
  split at h
  · cases h; exact Image.box_inBox hb _ _
  · cases h

namespace MissingArt

variable {p : MissingArt} {size : Nat}

theorem fill_box_sublist : ∀ (boxes : List Box) (queue : List Candidate),
    (∀ b ∈ boxes, b.Upright) → ((p.fill size queue boxes).map Image.box).Sublist boxes
  | [], _, _ => List.Sublist.slnil
  | b :: boxes, queue, hup => by
    obtain ⟨hb, hbs⟩ := List.forall_mem_cons.1 hup
    have ih := fill_box_sublist boxes (p.settle size queue).rest hbs
    rw [fill_cons]
    cases himage : (p.settle size queue).image? b with
    | none => exact ih.cons b
    | some i =>
      rw [Option.toList_some, List.singleton_append, List.map_cons, Settled.image?_box hb himage]
      exact ih.cons_cons b

theorem picture?_isSome (hp : p.placeholder = true) (hsize : size ∈ Limits.thumbnailSizes)
    (b : Box) (c : Option Candidate) : (p.picture? size b c).isSome := by
  cases hart : c.bind Candidate.artwork with
  | none => simp [picture?_no_art hart, url?, hp]
  | some a => simpa [picture?_art hart, Artwork.thumbnail?_isSome_iff] using hsize

theorem fill_box_eq (hp : p.placeholder = true) (hsize : size ∈ Limits.thumbnailSizes) :
    ∀ (boxes : List Box) (queue : List Candidate), (∀ b ∈ boxes, b.Upright) →
      (p.fill size queue boxes).map Image.box = boxes
  | [], _, _ => rfl
  | b :: boxes, queue, hup => by
    obtain ⟨hb, hbs⟩ := List.forall_mem_cons.1 hup
    have ih := fill_box_eq hp hsize boxes (p.settle size queue).rest hbs
    have hsome := picture?_isSome hp hsize b (p.usable queue).head?
    rw [← (settle_spec p size b queue).1] at hsome
    obtain ⟨i, himage⟩ := Option.isSome_iff_exists.1 hsome
    rw [fill_cons, himage, Option.toList_some, List.singleton_append, List.map_cons,
      Settled.image?_box hb himage, ih]

end MissingArt

/-! ## The catalog -/

namespace Catalog

/-- How many designs the catalog has for a dimension. -/
def registered (d : Nat) : Nat := ((designs? d).getD []).length

theorem design_eq_error_iff {d n : Nat} {e : CoverError} :
    design d n = .error e ↔ registered d ≤ n ∧ e = .unknownDesign d n := by
  unfold design registered
  cases hd : designs? d with
  | none => simp [eq_comm]
  | some ds =>
    simp only [Option.bind_some, Option.getD_some]
    cases hn : ds[n]? with
    | none =>
      have hle := List.getElem?_eq_none_iff.1 hn
      simp [hle, eq_comm]
    | some design =>
      obtain ⟨hlt, -⟩ := List.getElem?_eq_some_iff.1 hn
      simp [Nat.not_le.2 hlt]

/-- **The catalog is sound.** Each of its designs is accepted, for every dimension that options can
have. -/
theorem check_eq_ok : check = .ok () := by decide

variable {d : Nat}

theorem designs_checked (h : Limits.minDimension ≤ d ∧ d ≤ Limits.maxDimension) :
    ∀ design ∈ (designs? d).getD [], Design.check d design = .ok () := by
  have hmem : d ∈ List.range' Limits.minDimension (Limits.maxDimension + 1 - Limits.minDimension) :=
    List.mem_range'_1.2 ⟨h.1, Nat.lt_succ_of_le h.2⟩
  exact forM_eq_ok_iff.1 (forM_eq_ok_iff.1 check_eq_ok d hmem)

theorem registered_pos (h : Limits.minDimension ≤ d ∧ d ≤ Limits.maxDimension) :
    0 < registered d := by
  have hall : ∀ d ≤ Limits.maxDimension, Limits.minDimension ≤ d → 0 < registered d := by decide
  exact hall d h.2 h.1

theorem design_checked (h : Limits.minDimension ≤ d ∧ d ≤ Limits.maxDimension) {n : Nat}
    {ds : Design} (hds : design d n = .ok ds) : Design.check d ds = .ok () := by
  rw [design_eq_ok_iff] at hds
  obtain ⟨all, hall, hn⟩ := Option.bind_eq_some_iff.1 hds
  refine designs_checked h ds ?_
  rw [hall]
  exact List.mem_of_getElem? hn

end Catalog

/-! ## Room for every box -/

/-- The box is not empty and ends where the last pixel of the image begins, or earlier. -/
structure Box.Roomy (side : Nat) (b : Box) : Prop where
  upright : b.Upright
  width_pos : 1 ≤ b.width
  height_pos : 1 ≤ b.height
  right_le : b.far.x ≤ side - 1
  bottom_le : b.far.y ≤ side - 1

theorem Partitions.boxes_roomy {g : Grid} {as : List Address} (h : Partitions g.dimension as)
    (hT : 2 ≤ g.tileSize) (hs : 0 < g.imageSize) : ∀ b ∈ g.boxes as, b.Roomy g.imageSize := by
  intro b hb
  obtain ⟨a, ha, rfl⟩ := List.mem_map.1 hb
  obtain ⟨⟨hrow, hbottom⟩, hcol, hright⟩ := h.span_within ha
  have hx : (a.span g.dimension).left * g.tileSize < g.edge (a.span g.dimension).right :=
    Nat.lt_of_le_of_lt (Nat.mul_le_mul_right _ hcol) (Grid.start_lt_edge hT hright)
  have hy : (a.span g.dimension).top * g.tileSize < g.edge (a.span g.dimension).bottom :=
    Nat.lt_of_le_of_lt (Nat.mul_le_mul_right _ hrow) (Grid.start_lt_edge hT hbottom)
  constructor
  · exact ⟨Nat.le_of_lt hx, Nat.le_of_lt hy⟩
  · simp only [Box.width, Grid.spanBox]; omega
  · simp only [Box.height, Grid.spanBox]; omega
  · exact Grid.edge_le_last hs hright
  · exact Grid.edge_le_last hs hbottom

/-- Images that are not empty, stay in the square short of its last row and column, and do not
overlap. -/
structure LaidOut (side : Nat) (images : List Image) : Prop where
  width_pos : ∀ i ∈ images, 1 ≤ i.width
  height_pos : ∀ i ∈ images, 1 ≤ i.height
  right_le : ∀ i ∈ images, i.left + i.width ≤ side - 1
  bottom_le : ∀ i ∈ images, i.top + i.height ≤ side - 1
  apart : images.Pairwise fun i j => ∀ p, ¬ (i.box.Paints p ∧ j.box.Paints p)

theorem LaidOut.of_sublist {side : Nat} {boxes : List Box} {images : List Image}
    (hroom : ∀ b ∈ boxes, b.Roomy side) (hdiv : DividesSquare side boxes)
    (hsub : (images.map Image.box).Sublist boxes) : LaidOut side images := by
  have hmem : ∀ i ∈ images, i.box.Roomy side :=
    fun i hi => hroom _ (hsub.subset (List.mem_map_of_mem hi))
  refine ⟨fun i hi => ?_, fun i hi => ?_, fun i hi => (hmem i hi).right_le,
    fun i hi => (hmem i hi).bottom_le, ?_⟩
  · simpa [Box.width, Image.box] using (hmem i hi).width_pos
  · simpa [Box.height, Image.box] using (hmem i hi).height_pos
  · exact List.pairwise_map.1 (hdiv.apart.sublist hsub)

/-! ## Composers -/

namespace Composer

variable {c : Composer}

theorem in_range (c : Composer) :
    (Limits.minDimension ≤ c.options.dimension ∧ c.options.dimension ≤ Limits.maxDimension) ∧
      Limits.minImageSize ≤ c.options.imageSize ∧ c.options.imageSize ≤ Limits.maxImageSize := by
  obtain ⟨hd, -, hs⟩ := Options.check_eq_ok_iff.1 c.checked
  exact ⟨hd, hs⟩

theorem imageSize_pos (c : Composer) : 0 < c.grid.imageSize :=
  Nat.lt_of_lt_of_le (by decide) c.in_range.2.1

theorem two_le_tileSize (c : Composer) : 2 ≤ c.grid.tileSize := by
  obtain ⟨⟨hmin, hmax⟩, hs, -⟩ := c.in_range
  simp only [Limits.minDimension, Limits.maxDimension, Limits.minImageSize] at hmin hmax hs
  change 2 ≤ c.options.imageSize / c.options.dimension
  rw [Nat.le_div_iff_mul_le (by omega)]
  omega

/-- Releases are composed as candidates once the artwork store has answered. -/
theorem composeReleases_result {s : Stores} {known : String → Option ReleaseInfo}
    {releases : List String} (hknown : s.artwork (requested releases) = .ok known) (layout : Layout)
    (size : Nat) :
    (c.composeReleases s releases layout size).result =
      c.compose (candidates known releases) layout size := by
  rw [composeReleases, hknown]
  rfl

/-- Composing takes the design of the layout and the boxes of its addresses. -/
theorem compose_eq_ok_iff {candidates : List Candidate} {layout : Layout} {size : Nat}
    {images : List Image} :
    c.compose candidates layout size = .ok images ↔
      ∃ design boxes, layout.addresses c.options.dimension = .ok design ∧
        List.Forall₂ (fun text b => c.grid.boxOfText text = .ok b) design boxes ∧
        images = c.missingArt.fill size candidates boxes := by
  simp only [compose, Grid.place, bind_eq_ok_iff, mapM_eq_ok_iff]
  constructor
  · rintro ⟨design, hdesign, boxes, hboxes, himages⟩
    exact ⟨design, boxes, hdesign, hboxes, (Except.ok.inj himages).symm⟩
  · rintro ⟨design, boxes, hdesign, hboxes, rfl⟩
    exact ⟨design, hdesign, boxes, hboxes, rfl⟩

/-- Composing on a design that the check accepts. -/
theorem compose_checked (candidates : List Candidate) (size : Nat) {layout : Layout}
    {design : Design} (hdesign : layout.addresses c.options.dimension = .ok design)
    (hcheck : Design.check c.options.dimension design = .ok ()) :
    ∃ boxes, List.Forall₂ (fun text b => c.grid.boxOfText text = .ok b) design boxes ∧
      DividesSquare c.options.imageSize boxes ∧ (∀ b ∈ boxes, b.Roomy c.options.imageSize) ∧
      c.compose candidates layout size = .ok (c.missingArt.fill size candidates boxes) := by
  obtain ⟨as, has, hpart⟩ := Design.check_eq_ok_iff.1 hcheck
  have hpart : Partitions c.grid.dimension as := hpart
  have hd : 0 < c.grid.dimension := Nat.lt_of_lt_of_le (by decide) c.in_range.1.1
  have hs := c.imageSize_pos
  have hboxes := hpart.forall₂_boxOfText hs has
  exact ⟨c.grid.boxes as, hboxes, hpart.dividesSquare hd hs,
    hpart.boxes_roomy c.two_le_tileSize hs, compose_eq_ok_iff.2 ⟨design, _, hdesign, hboxes, rfl⟩⟩

/-- One image at each address of the design, and no pixel short of the last row and column left
unpainted. -/
structure FillsDesign (c : Composer) (design : Design) (images : List Image) : Prop where
  one_each : List.Forall₂ (fun text i => c.grid.boxOfText text = .ok i.box) design images
  paints : ∀ p : Pixel, p.x < c.options.imageSize - 1 → p.y < c.options.imageSize - 1 →
    ∃ i ∈ images, i.box.Paints p

/-- A choice from the catalog either has a number that the catalog lacks or stands for a design
that the check accepts. -/
theorem addresses_cases (c : Composer) {layout : Layout} (hl : ∀ as, layout ≠ .listed as) :
    (∃ n, layout = .numbered n ∧ Catalog.registered c.options.dimension ≤ n) ∨
    ((∀ n, layout = .numbered n → n < Catalog.registered c.options.dimension) ∧
      ∃ design, layout.addresses c.options.dimension = .ok design ∧
        Design.check c.options.dimension design = .ok ()) := by
  have hd := c.in_range.1
  have hfound (n : Nat) (hn : n < Catalog.registered c.options.dimension) :
      ∃ design, Catalog.design c.options.dimension n = .ok design ∧
        Design.check c.options.dimension design = .ok () := by
    cases hds : Catalog.design c.options.dimension n with
    | ok design => exact ⟨design, rfl, Catalog.design_checked hd hds⟩
    | error e => exact absurd (Catalog.design_eq_error_iff.1 hds).1 (Nat.not_le.2 hn)
  cases layout with
  | plain => exact .inr ⟨nofun, hfound 0 (Catalog.registered_pos hd)⟩
  | listed as => exact absurd rfl (hl as)
  | numbered n =>
    by_cases hn : n < Catalog.registered c.options.dimension
    · exact .inr ⟨fun m h => Layout.numbered.inj h ▸ hn, hfound n hn⟩
    · exact .inl ⟨n, rfl, Nat.not_lt.1 hn⟩

/-- **Covers on designs of the catalog.** Composing fails for the numbers that the catalog lacks,
and for these only. Otherwise the images do not overlap and stay inside the image. With the
placeholder shown and a size that the archive keeps, there is one image at each address, and
together they paint the whole square short of its last row and column. -/
theorem compose_catalog (c : Composer) (candidates : List Candidate) (size : Nat) {layout : Layout}
    (hl : ∀ as, layout ≠ .listed as) :
    (∃ n, layout = .numbered n ∧ Catalog.registered c.options.dimension ≤ n ∧
      c.compose candidates layout size = .error (.unknownDesign c.options.dimension n)) ∨
    ((∀ n, layout = .numbered n → n < Catalog.registered c.options.dimension) ∧
      ∃ images, c.compose candidates layout size = .ok images ∧
        LaidOut c.options.imageSize images ∧
        (c.options.showPlaceholder = true → size = 250 ∨ size = 500 →
          ∃ design, layout.addresses c.options.dimension = .ok design ∧
            c.FillsDesign design images)) := by
  rcases c.addresses_cases hl with ⟨n, rfl, hn⟩ | ⟨hn, design, hdesign, hcheck⟩
  · have hdesign := Catalog.design_eq_error_iff.2 ⟨hn, rfl⟩
    refine .inl ⟨n, rfl, hn, ?_⟩
    rw [compose, Layout.addresses, hdesign]
    rfl
  · obtain ⟨boxes, hboxes, hdiv, hroom, hcompose⟩ := compose_checked candidates size hdesign hcheck
    have hup : ∀ b ∈ boxes, b.Upright := fun b hb => (hroom b hb).upright
    refine .inr ⟨hn, _, hcompose, LaidOut.of_sublist hroom hdiv
      (MissingArt.fill_box_sublist boxes candidates hup), fun hshow hsize => ?_⟩
    have hkept := Limits.mem_thumbnailSizes.2 hsize
    -- no cell stays blank, so the boxes of the images are all boxes of the design
    have hall := MissingArt.fill_box_eq (p := c.missingArt) hshow hkept boxes candidates hup
    refine ⟨design, hdesign, ?_, fun p hx hy => ?_⟩
    · rw [← hall, List.forall₂_map_right_iff] at hboxes
      exact hboxes
    · obtain ⟨b, hb, hp⟩ := (hdiv.paints p).2 ⟨hx, hy⟩
      rw [← hall] at hb
      obtain ⟨i, hi, rfl⟩ := List.mem_map.1 hb
      exact ⟨i, hi, hp⟩

/-- A design with merged tiles, an image that four does not divide, and two candidates, one of them
without artwork, for ten cells. -/
theorem compose_catalog_merged :
    ∃ c : Composer, c.options = ⟨4, 511, "#0a1B2c", false, true⟩ ∧
      (∀ as, Layout.numbered 2 ≠ .listed as) ∧
      ∃ images, c.compose [⟨⟨"a", "A", "x"⟩, none⟩, ⟨⟨"b", "B", "y"⟩, some ⟨7, "r"⟩⟩]
          (.numbered 2) 250 = .ok images ∧
        images.take 3 =
          [⟨0, 0, 254, 254, "https://listenbrainz.org/static/img/cover-art-placeholder.jpg",
              some ⟨"a", "A", "x"⟩⟩,
            ⟨254, 254, 256, 256, "https://archive.org/download/mbid-r/mbid-r-7_thumb250.jpg",
              some ⟨"b", "B", "y"⟩⟩,
            ⟨254, 0, 127, 127, "https://listenbrainz.org/static/img/cover-art-placeholder.jpg",
              none⟩] ∧
        LaidOut 511 images ∧
        ∃ design, (Layout.numbered 2).addresses 4 = .ok design ∧ c.FillsDesign design images := by
  have hl : ∀ as, Layout.numbered 2 ≠ .listed as := nofun
  refine ⟨⟨⟨4, 511, "#0a1B2c", false, true⟩, .colour ⟨10, 27, 44⟩, by decide⟩, rfl, hl, ?_⟩
  rcases compose_catalog ⟨⟨4, 511, "#0a1B2c", false, true⟩, .colour ⟨10, 27, 44⟩, by decide⟩
    [⟨⟨"a", "A", "x"⟩, none⟩, ⟨⟨"b", "B", "y"⟩, some ⟨7, "r"⟩⟩] 250 hl with
    ⟨n, hn, hle, -⟩ | ⟨-, images, hok, hlaid, hfill⟩
  · cases hn
    exact absurd hle (by decide)
  · have himages := congrArg (Except.map (List.take 3)) hok
    refine ⟨images, hok, ?_, hlaid, hfill rfl (.inl rfl)⟩
    exact (Except.ok.inj himages).symm

end Composer

end CoverMosaic
