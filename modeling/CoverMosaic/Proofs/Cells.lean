import CoverMosaic.Proofs.Queue
import CoverMosaic.Proofs.Thumbnails
/-!
# Which candidate goes to which cell: `assemble` at another size or without the placeholder

The queue moves on from cell to cell. How far depends on the candidates without artwork and on
whether these are passed over, and on nothing else: neither the size nor the placeholder has a say
(`settle_given`), although they decide what a cell shows. Two runs that differ in these only give
each cell the same candidate (`cells_given`), so that their images can be compared cell by cell
(`fill_eq_filter`).

Main result `place_without_placeholder`: to turn the placeholder off is to remove the images that
show it. The archive has no image at the address of the placeholder (`thumbnail?_ne_placeholder`),
so none of its images goes with them. Main result `place_at_sizes`: the size changes what images
show and never where they are; at a size that the archive does not keep, its images are missing.
-/
namespace CoverMosaic

/-! ## The cells of a run -/

/-- The images of cells in their boxes, where a blank cell has none. -/
def Settled.images (boxes : List Box) (cells : List Settled) : List Image :=
  (boxes.zip cells).filterMap fun (box, cell) => cell.image? box

namespace MissingArt

/-- The cells of a run in order, each settled with the queue that the one before it leaves. -/
def cells (p : MissingArt) (size : Nat) : List Candidate → Nat → List Settled
  | _, 0 => []
  | queue, n + 1 => p.settle size queue :: p.cells size (p.settle size queue).rest n

variable {p q : MissingArt} {size : Nat}

/-- The images of a run are those of its cells. -/
theorem fill_eq_images : ∀ (boxes : List Box) (queue : List Candidate),
    p.fill size queue boxes = Settled.images boxes (p.cells size queue boxes.length)
  | [], _ => rfl
  | box :: boxes, queue => by
    have ih := fill_eq_images boxes (p.settle size queue).rest
    rw [fill_cons, ih, List.length_cons, cells]
    cases himage : (p.settle size queue).image? box <;> simp [Settled.images, himage]

theorem outcome_skip_congr (h : p.skip = q.skip) (size size' : Nat) (art : Option Artwork) :
    p.outcome size art = .skip ↔ q.outcome size' art = .skip := by
  rw [outcome_eq_skip_iff, outcome_eq_skip_iff, h]

/-- **One cell** takes the same candidate and leaves the same queue. -/
theorem settle_given (h : p.skip = q.skip) (size size' : Nat) : ∀ queue : List Candidate,
    (p.settle size queue).candidate = (q.settle size' queue).candidate ∧
      (p.settle size queue).rest = (q.settle size' queue).rest
  | [] => ⟨rfl, rfl⟩
  | c :: queue => by
    have hboth := outcome_skip_congr h size size' c.artwork
    by_cases hskip : p.outcome size c.artwork = .skip
    · rw [settle_skip hskip, settle_skip (hboth.1 hskip)]
      exact settle_given h size size' queue
    · rw [settle_take hskip, settle_take (mt hboth.2 hskip)]
      exact ⟨rfl, rfl⟩

/-- **All cells** take the same candidates. -/
theorem cells_given (h : p.skip = q.skip) (size size' : Nat) :
    ∀ (n : Nat) (queue : List Candidate),
    (p.cells size queue n).map Settled.candidate = (q.cells size' queue n).map Settled.candidate
  | 0, _ => rfl
  | n + 1, queue => by
    obtain ⟨hcandidate, hrest⟩ := settle_given h size size' queue
    have ih := cells_given h size size' n (q.settle size' queue).rest
    simp only [cells, List.map_cons, hcandidate, hrest, ih]

/-- Where each cell shows some of what it shows in another run, so does the whole run. -/
theorem fill_eq_filter {size' : Nat} {keep : Image → Bool} (h : p.skip = q.skip)
    (hpicture : ∀ box c, p.picture? size box c = (q.picture? size' box c).filter keep)
    (queue : List Candidate) (boxes : List Box) :
    p.fill size queue boxes = (q.fill size' queue boxes).filter keep := by
  have husable : p.usable queue = q.usable queue := by simp only [usable, h]
  rw [fill_eq_pictures, fill_eq_pictures, List.filter_filterMap, husable]
  apply List.filterMap_congr
  intro cell _
  exact hpicture _ _

end MissingArt

/-! ## The placeholder -/

theorem Artwork.thumbnail?_ne_placeholder {a : Artwork} {size : Nat} {url : String}
    (h : a.thumbnail? size = some url) : url ≠ Limits.placeholderUrl := by
  have hroot := starts_at_root h
  rintro rfl
  -- the archive and the placeholder are on different hosts
  exact absurd hroot (by decide)

namespace MissingArt

theorem picture?_without_placeholder (skip : Bool) (size : Nat) (box : Box) (c : Option Candidate) :
    picture? ⟨skip, false⟩ size box c =
      (picture? ⟨skip, true⟩ size box c).filter fun i => i.url ≠ Limits.placeholderUrl := by
  cases hart : c.bind Candidate.artwork with
  | none =>
    rw [picture?_no_art hart, picture?_no_art hart]
    simp [url?, Image.inBox, Option.filter_some]
  | some a =>
    rw [picture?_art hart, picture?_art hart]
    cases hurl : a.thumbnail? size with
    | none => rfl
    | some url =>
      have hne := a.thumbnail?_ne_placeholder hurl
      simp [Image.inBox, Option.filter_some, hne]

theorem fill_without_placeholder (skip : Bool) (size : Nat) (queue : List Candidate)
    (boxes : List Box) :
    fill ⟨skip, false⟩ size queue boxes =
      (fill ⟨skip, true⟩ size queue boxes).filter fun i => i.url ≠ Limits.placeholderUrl := by
  have hskip : (MissingArt.mk skip false).skip = (MissingArt.mk skip true).skip := rfl
  exact fill_eq_filter hskip (picture?_without_placeholder skip size) queue boxes

end MissingArt

/-- **The placeholder only adds images.** Without it a list of addresses is filled with the images
that do not show it, or refused with the same error. Both runs give each cell the same candidate,
and no image of the archive shows the placeholder. -/
theorem Grid.place_without_placeholder (g : Grid) (skip : Bool) (size : Nat)
    (queue : List Candidate) (addresses : List String) :
    g.place ⟨skip, false⟩ size queue addresses =
      (g.place ⟨skip, true⟩ size queue addresses).map
        (List.filter fun i => i.url ≠ Limits.placeholderUrl) ∧
    (∀ boxes, List.Forall₂ (fun text b => g.boxOfText text = .ok b) addresses boxes →
      (∀ placeholder, g.place ⟨skip, placeholder⟩ size queue addresses =
        .ok (Settled.images boxes (MissingArt.cells ⟨skip, placeholder⟩ size queue boxes.length))) ∧
      (MissingArt.cells ⟨skip, false⟩ size queue boxes.length).map Settled.candidate =
        (MissingArt.cells ⟨skip, true⟩ size queue boxes.length).map Settled.candidate) ∧
    ∀ (a : Artwork) (url : String), a.thumbnail? size = some url → url ≠ Limits.placeholderUrl := by
  refine ⟨?_, fun boxes hboxes => ⟨fun placeholder => ?_, ?_⟩,
    fun a url => a.thumbnail?_ne_placeholder⟩
  · unfold place
    cases addresses.mapM g.boxOfText with
    | error e => rfl
    | ok boxes =>
      show Except.ok _ = Except.ok _
      rw [MissingArt.fill_without_placeholder]
  · rw [place_of_boxes hboxes, MissingArt.fill_eq_images]
  · have hskip : (MissingArt.mk skip false).skip = (MissingArt.mk skip true).skip := rfl
    exact MissingArt.cells_given hskip size size boxes.length queue

/-- A candidate without artwork, one with it, and a cell that none is left for. -/
theorem Grid.place_without_placeholder_mixed :
    ∃ (queue : List Candidate) (boxes : List Box) (images archived : List Image),
      queue.map (·.artwork.isSome) = [false, true] ∧
      List.Forall₂ (fun text b => (Grid.mk 2 500).boxOfText text = .ok b) ["0,1", "2", "3"] boxes ∧
      (Grid.mk 2 500).place ⟨false, true⟩ 250 queue ["0,1", "2", "3"] = .ok images ∧
      (Grid.mk 2 500).place ⟨false, false⟩ 250 queue ["0,1", "2", "3"] = .ok archived ∧
      archived = (images.filter fun i => i.url ≠ Limits.placeholderUrl) ∧
      images.map (·.credit.map Credit.release) = [some "a", some "b", none] ∧
      archived.map (·.credit.map Credit.release) = [some "b"] ∧
      (MissingArt.cells ⟨false, false⟩ 250 queue boxes.length).map Settled.candidate =
        [queue[0]?, queue[1]?, none] := by
  let queue : List Candidate := [⟨⟨"a", "A", "x"⟩, none⟩, ⟨⟨"b", "B", "y"⟩, some ⟨7, "r"⟩⟩]
  have hboxes : List.Forall₂ (fun text b => (Grid.mk 2 500).boxOfText text = .ok b)
      ["0,1", "2", "3"] _ := .cons rfl (.cons rfl (.cons rfl .nil))
  obtain ⟨hfilter, hcells, -⟩ :=
    (Grid.mk 2 500).place_without_placeholder false 250 queue ["0,1", "2", "3"]
  obtain ⟨hplace, hgiven⟩ := hcells _ hboxes
  rw [hplace true] at hfilter
  exact ⟨queue, _, _, _, rfl, hboxes, hplace true, hfilter, rfl, by decide, by decide,
    hgiven.trans (by decide)⟩

/-! ## The size -/

/-- The images agree in every field but the one that says what they show. -/
def Image.SameButUrl (i j : Image) : Prop := { i with url := j.url } = j

namespace MissingArt

variable {p : MissingArt} {size size' : Nat}

theorem picture?_sameButUrl (hsize : size ∈ Limits.thumbnailSizes)
    (hsize' : size' ∈ Limits.thumbnailSizes) (box : Box) (c : Option Candidate) :
    Option.Rel Image.SameButUrl (p.picture? size box c) (p.picture? size' box c) := by
  cases hart : c.bind Candidate.artwork with
  | none =>
    rw [picture?_no_art hart, picture?_no_art hart]
    cases p.url? with
    | none => exact .none
    | some url => exact .some rfl
  | some a =>
    obtain ⟨url, hurl⟩ := Option.isSome_iff_exists.1 (a.thumbnail?_isSome_iff.2 hsize)
    obtain ⟨url', hurl'⟩ := Option.isSome_iff_exists.1 (a.thumbnail?_isSome_iff.2 hsize')
    rw [picture?_art hart, picture?_art hart, hurl, hurl']
    exact .some rfl

/-- At a size that the archive does not keep, a cell shows the placeholder or nothing. -/
theorem picture?_unkept (hsize : size ∉ Limits.thumbnailSizes) (size' : Nat) (box : Box)
    (c : Option Candidate) :
    p.picture? size box c =
      (p.picture? size' box c).filter fun i => i.url = Limits.placeholderUrl := by
  cases hart : c.bind Candidate.artwork with
  | none =>
    rw [picture?_no_art hart, picture?_no_art hart]
    by_cases hp : p.placeholder = true
    · simp [url?, Image.inBox, Option.filter_some, hp]
    · simp [url?, hp]
  | some a =>
    have hnone : a.thumbnail? size = none := by
      simpa using mt a.thumbnail?_isSome_iff.1 hsize
    rw [picture?_art hart, picture?_art hart, hnone]
    cases hurl : a.thumbnail? size' with
    | none => rfl
    | some url =>
      have hne := a.thumbnail?_ne_placeholder hurl
      simp [Image.inBox, Option.filter_some, hne]

theorem fill_sameButUrl (hsize : size ∈ Limits.thumbnailSizes)
    (hsize' : size' ∈ Limits.thumbnailSizes) (queue : List Candidate) (boxes : List Box) :
    List.Forall₂ Image.SameButUrl (p.fill size queue boxes) (p.fill size' queue boxes) := by
  rw [fill_eq_pictures, fill_eq_pictures]
  refine List.rel_filterMap (R := Eq) ?_ ?_
  · rintro cell _ rfl
    exact picture?_sameButUrl hsize hsize' _ _
  · exact List.forall₂_refl _

end MissingArt

/-- **The size only changes what is shown.** Where a list of addresses is filled at one size, it is
filled at every size, and each cell takes the same candidate. The images at the two sizes of the
archive stand to each other one for one and differ in nothing but what they show. At any other size
those that show the placeholder are left, and the cells of the others stay blank. -/
theorem Grid.place_at_sizes {g : Grid} {p : MissingArt} {size₀ : Nat} {queue : List Candidate}
    {addresses : List String} {images : List Image}
    (h : g.place p size₀ queue addresses = .ok images) :
    ∃ small large boxes, g.place p 250 queue addresses = .ok small ∧
      g.place p 500 queue addresses = .ok large ∧
      small.length = large.length ∧ List.Forall₂ Image.SameButUrl small large ∧
      (∀ size, size ≠ 250 → size ≠ 500 → g.place p size queue addresses =
        .ok (large.filter fun i => i.url = Limits.placeholderUrl)) ∧
      List.Forall₂ (fun text b => g.boxOfText text = .ok b) addresses boxes ∧
      ∀ size, g.place p size queue addresses =
          .ok (Settled.images boxes (p.cells size queue boxes.length)) ∧
        (p.cells size queue boxes.length).map Settled.candidate =
          (p.cells 500 queue boxes.length).map Settled.candidate := by
  obtain ⟨boxes, hboxes, -⟩ := bind_eq_ok_iff.1 h
  have hboxes := mapM_eq_ok_iff.1 hboxes
  have hsame : List.Forall₂ Image.SameButUrl (p.fill 250 queue boxes) (p.fill 500 queue boxes) :=
    MissingArt.fill_sameButUrl (by decide) (by decide) queue boxes
  refine ⟨_, _, boxes, place_of_boxes hboxes, place_of_boxes hboxes, hsame.length_eq, hsame, ?_,
    hboxes, ?_⟩
  · intro size hsmall hlarge
    have hsize : size ∉ Limits.thumbnailSizes := by simp [Limits.thumbnailSizes, hsmall, hlarge]
    rw [place_of_boxes hboxes,
      MissingArt.fill_eq_filter rfl (MissingArt.picture?_unkept hsize 500) queue boxes]
  · intro size
    rw [place_of_boxes hboxes, MissingArt.fill_eq_images]
    exact ⟨rfl, MissingArt.cells_given rfl size 500 boxes.length queue⟩

/-- Artwork between two candidates without it. At a size that is not kept its cell stays blank, and
the candidate behind it does not move up. -/
theorem Grid.place_at_sizes_between :
    ∃ (queue : List Candidate) (small large unkept : List Image),
      queue.map (·.artwork.isSome) = [false, true, false] ∧
      (Grid.mk 2 500).place ⟨false, true⟩ 1200 queue ["0,1", "2", "3"] = .ok unkept ∧
      (Grid.mk 2 500).place ⟨false, true⟩ 250 queue ["0,1", "2", "3"] = .ok small ∧
      (Grid.mk 2 500).place ⟨false, true⟩ 500 queue ["0,1", "2", "3"] = .ok large ∧
      List.Forall₂ Image.SameButUrl small large ∧
      unkept = (large.filter fun i => i.url = Limits.placeholderUrl) ∧
      large.map (fun i => (i.top, i.credit.map Credit.release)) =
        [(0, some "a"), (250, some "b"), (250, some "c")] ∧
      unkept.map (fun i => (i.left, i.credit.map Credit.release)) =
        [(0, some "a"), (250, some "c")] := by
  let queue : List Candidate :=
    [⟨⟨"a", "A", "x"⟩, none⟩, ⟨⟨"b", "B", "y"⟩, some ⟨7, "r"⟩⟩, ⟨⟨"c", "C", "z"⟩, none⟩]
  have hunkept : (Grid.mk 2 500).place ⟨false, true⟩ 1200 queue ["0,1", "2", "3"] = .ok _ := rfl
  obtain ⟨small, large, -, hsmall, hlarge, -, hsame, hother, -⟩ := place_at_sizes hunkept
  have hfilter := hother 1200 (by decide) (by decide)
  have hrun : (Grid.mk 2 500).place ⟨false, true⟩ 500 queue ["0,1", "2", "3"] = .ok _ := rfl
  obtain rfl := Except.ok.inj (hrun.symm.trans hlarge)
  exact ⟨queue, small, _, _, rfl, hfilter, hsmall, hrun, hsame, rfl, by decide, by decide⟩

end CoverMosaic
