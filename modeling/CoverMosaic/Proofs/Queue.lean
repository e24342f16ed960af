import CoverMosaic.Placement
import CoverMosaic.Proofs.Tiling
/-!
# The queue and its closed form: `assemble`

Cells draw on one queue, so what a cell shows depends on all cells before it. The closed form does
without the queue: the candidates that the policy passes over are left out (`usable`), and what a
cell shows for the candidate that it gets is written out case by case (`shown?`, `picture?`).

The invariant that unties the cells is `usable rest = (usable queue).tail`: however many candidates
a cell passes over, it uses up one usable candidate if there is one, and shows what that candidate
offers (`settle_spec`). Hence cell number `i` shows usable candidate number `i`.

Main result `place_eq_pictures`.
-/
namespace CoverMosaic

/-! ## The closed form -/

namespace MissingArt

/-- The candidates that the policy does not pass over. -/
def usable (p : MissingArt) (candidates : List Candidate) : List Candidate :=
  if p.skip then candidates.filter (·.artwork.isSome) else candidates

/-- What a cell shows for the candidate that it gets, or for none: the address of an image, and
whose cover it is. Artwork has an address in two sizes only; where there is no artwork the flag for
the placeholder decides, and the placeholder of a candidate is still its cover. -/
def shown? (p : MissingArt) (size : Nat) : Option Candidate → Option (String × Option Credit)
  | some ⟨credit, some art⟩ =>
    if size = 250 ∨ size = 500 then
      some ("https://archive.org/download/mbid-" ++ art.release ++ "/mbid-" ++ art.release ++
        "-" ++ toString art.image.toNat ++ "_thumb" ++ toString size ++ ".jpg", some credit)
    else none
  | some ⟨credit, none⟩ =>
    if p.placeholder then
      some ("https://listenbrainz.org/static/img/cover-art-placeholder.jpg", some credit)
    else none
  | none =>
    if p.placeholder then
      some ("https://listenbrainz.org/static/img/cover-art-placeholder.jpg", none)
    else none

/-- The image that a cell shows, with its position and extent. -/
def picture? (p : MissingArt) (size : Nat) (box : Box) (c : Option Candidate) : Option Image :=
  (p.shown? size c).map fun (url, credit) =>
    { left := box.near.x
      top := box.near.y
      width := box.far.x - box.near.x
      height := box.far.y - box.near.y
      url := url
      credit := credit }

theorem picture?_art {p : MissingArt} {size : Nat} {c : Option Candidate} {a : Artwork}
    (h : c.bind Candidate.artwork = some a) (box : Box) :
    p.picture? size box c = (a.thumbnail? size).map fun url => Image.inBox box url c := by
  obtain ⟨⟨credit, art⟩, rfl, rfl⟩ := Option.bind_eq_some_iff.1 h
  have hroot : Limits.archiveRoot ++ "/mbid-" = "https://archive.org/download/mbid-" := by decide
  rw [picture?, shown?, Artwork.thumbnail?, hroot]
  by_cases hsize : size = 250 ∨ size = 500
  · rw [if_pos hsize, if_pos (Limits.mem_thumbnailSizes.2 hsize)]; rfl
  · rw [if_neg hsize, if_neg (mt Limits.mem_thumbnailSizes.1 hsize)]; rfl

theorem picture?_no_art {p : MissingArt} {size : Nat} {c : Option Candidate}
    (h : c.bind Candidate.artwork = none) (box : Box) :
    p.picture? size box c = p.url?.map fun url => Image.inBox box url c := by
  cases c with
  | none => rw [picture?, shown?, url?]; cases p.placeholder <;> rfl
  | some c =>
    obtain ⟨credit, art⟩ := c
    obtain rfl : art = none := h
    rw [picture?, shown?, url?]; cases p.placeholder <;> rfl

end MissingArt

/-! ## One cell -/

/-- The image of a settled cell in its box; a blank cell has none. -/
def Settled.image? (box : Box) (cell : Settled) : Option Image :=
  match cell.outcome with
  | .image url => some (Image.inBox box url cell.candidate)
  | _ => none

namespace MissingArt

variable {p : MissingArt} {size : Nat} {c : Candidate} {queue : List Candidate} {box : Box}

theorem settle_skip (h : p.outcome size c.artwork = .skip) :
    p.settle size (c :: queue) = p.settle size queue := by
  rw [settle, h]

theorem settle_take (h : p.outcome size c.artwork ≠ .skip) :
    p.settle size (c :: queue) = ⟨p.outcome size c.artwork, some c, queue⟩ := by
  rw [settle]
  split
  · rename_i hskip; exact absurd hskip h
  · rfl

theorem usable_skip (h : p.outcome size c.artwork = .skip) :
    p.usable (c :: queue) = p.usable queue := by
  obtain ⟨hp, hc⟩ := outcome_eq_skip_iff.1 h
  simp [usable, hp, hc]

theorem usable_take (h : p.outcome size c.artwork ≠ .skip) :
    p.usable (c :: queue) = c :: p.usable queue := by
  unfold usable
  by_cases hp : p.skip = true
  · have hc : c.artwork ≠ none := fun hc => h (outcome_eq_skip_iff.2 ⟨hp, hc⟩)
    rw [if_pos hp, if_pos hp]
    exact List.filter_cons_of_pos (Option.isSome_iff_ne_none.2 hc)
  · rw [if_neg hp, if_neg hp]

theorem usable_nil : p.usable [] = [] := by
  unfold usable
  split <;> rfl

theorem image?_fallback (rest : List Candidate) :
    Settled.image? box ⟨p.fallback, none, rest⟩ = p.picture? size box none := by
  rw [picture?_no_art rfl, fallback]
  cases p.url? <;> rfl

theorem image?_take (h : p.outcome size c.artwork ≠ .skip) :
    Settled.image? box ⟨p.outcome size c.artwork, some c, queue⟩ = p.picture? size box (some c) := by
  cases hc : c.artwork with
  | some a =>
    rw [picture?_art (c := some c) hc, outcome]
    cases a.thumbnail? size <;> rfl
  | none =>
    have hp : p.skip ≠ true := fun hp => h (outcome_eq_skip_iff.2 ⟨hp, hc⟩)
    rw [picture?_no_art (c := some c) hc, outcome, if_neg hp, fallback]
    cases p.url? <;> rfl

/-- **One cell** uses up one usable candidate and shows it. -/
theorem settle_spec (p : MissingArt) (size : Nat) (box : Box) : ∀ queue : List Candidate,
    (p.settle size queue).image? box = p.picture? size box (p.usable queue).head? ∧
    p.usable (p.settle size queue).rest = (p.usable queue).tail
  | [] => by rw [usable_nil]; exact ⟨image?_fallback [], usable_nil⟩
  | c :: queue => by
    by_cases h : p.outcome size c.artwork = .skip
    · rw [settle_skip h, usable_skip h]
      exact settle_spec p size box queue
    · rw [settle_take h, usable_take h]
      exact ⟨image?_take h, rfl⟩

/-! ## All cells -/

theorem fill_cons (boxes : List Box) :
    p.fill size queue (box :: boxes) =
      ((p.settle size queue).image? box).toList ++ p.fill size (p.settle size queue).rest boxes := by
  rw [fill, Settled.image?]
  cases (p.settle size queue).outcome <;> rfl

/-- From cell number `k` on, when `k` of the usable candidates are gone. -/
theorem fill_eq_pictures_from (cs : List Candidate) :
    ∀ (boxes : List Box) (k : Nat) (queue : List Candidate), p.usable queue = cs.drop k →
      p.fill size queue boxes =
        (boxes.zipIdx k).filterMap fun (box, i) => p.picture? size box cs[i]?
  | [], _, _, _ => rfl
  | box :: boxes, k, queue, hk => by
    obtain ⟨himage, hrest⟩ := settle_spec p size box queue
    -- the cell shows usable candidate `k`, and `k + 1` of them are gone after it
    rw [hk, List.head?_drop] at himage
    rw [hk, List.tail_drop] at hrest
    rw [fill_cons, himage, fill_eq_pictures_from cs boxes (k + 1) _ hrest, List.zipIdx_cons]
    cases hpic : p.picture? size box cs[k]? <;> simp [hpic]

theorem fill_eq_pictures (queue : List Candidate) (boxes : List Box) :
    p.fill size queue boxes =
      boxes.zipIdx.filterMap fun (box, i) => p.picture? size box (p.usable queue)[i]? :=
  fill_eq_pictures_from (p.usable queue) boxes 0 queue rfl

end MissingArt

namespace Grid

variable {g : Grid} {p : MissingArt} {size : Nat} {candidates : List Candidate}
  {addresses : List String}

theorem place_of_boxes {boxes : List Box}
    (h : List.Forall₂ (fun text b => g.boxOfText text = .ok b) addresses boxes) :
    g.place p size candidates addresses = .ok (p.fill size candidates boxes) := by
  unfold place
  rw [mapM_eq_ok_iff.2 h]
  rfl

/-- The text is an address of the grid. -/
def Names (g : Grid) (text : String) : Prop := ∃ a, Address.read? text = some a ∧ g.Has a

instance (g : Grid) (text : String) : Decidable (g.Names text) :=
  inferInstanceAs (Decidable (∃ a ∈ Address.read? text, g.Has a))

theorem names_iff_boxOfText (hs : 0 < g.imageSize) {text : String} :
    g.Names text ↔ ∃ b, g.boxOfText text = .ok b := by
  simp only [boxOfText_eq_ok_iff hs, Names]
  constructor
  · rintro ⟨a, hread, hhas⟩; exact ⟨_, a, hread, hhas, rfl⟩
  · rintro ⟨_, a, hread, hhas, _⟩; exact ⟨a, hread, hhas⟩

theorem boxOfText_error {text : String} {e : CoverError} (h : g.boxOfText text = .error e) :
    e = .badAddress text := by
  unfold boxOfText at h
  cases hread : Address.ofText text with
  | error e' =>
    rw [hread] at h
    obtain rfl := Except.error.inj h
    exact Address.ofText_error hread
  | ok a =>
    rw [hread] at h
    cases hbox : g.addressBox? a with
    | none => simpa [bind, Except.bind, hbox, eq_comm] using h
    | some b => simp [bind, Except.bind, hbox] at h

theorem boxOfText_eq_error_iff (hs : 0 < g.imageSize) {text : String} {e : CoverError} :
    g.boxOfText text = .error e ↔ ¬ g.Names text ∧ e = .badAddress text := by
  rw [names_iff_boxOfText hs, not_exists]
  exact eq_error_iff_forall_ne_ok fun e => boxOfText_error

theorem exists_boxes (hs : 0 < g.imageSize) (h : ∀ text ∈ addresses, g.Names text) :
    ∃ boxes, List.Forall₂ (fun text b => g.boxOfText text = .ok b) addresses boxes := by
  induction addresses with
  | nil => exact ⟨[], .nil⟩
  | cons text rest ih =>
    obtain ⟨htext, hrest⟩ := List.forall_mem_cons.1 h
    obtain ⟨b, hb⟩ := (names_iff_boxOfText hs).1 htext
    obtain ⟨boxes, hboxes⟩ := ih hrest
    exact ⟨b :: boxes, .cons hb hboxes⟩

/-- **Placement in closed form.** At addresses of the grid, the cell of address number `i` shows
candidate number `i` of those that the policy does not pass over: its artwork if the archive keeps
that size, the placeholder for a candidate without artwork or for none at all if the policy shows
it, and otherwise nothing. -/
theorem place_eq_pictures (hs : 1 ≤ g.imageSize) (h : ∀ text ∈ addresses, g.Names text) :
    ∃ boxes, List.Forall₂ (fun text b => g.boxOfText text = .ok b) addresses boxes ∧
      g.place p size candidates addresses = .ok (boxes.zipIdx.filterMap fun (box, i) =>
        p.picture? size box (p.usable candidates)[i]?) := by
  obtain ⟨boxes, hboxes⟩ := exists_boxes hs h
  refine ⟨boxes, hboxes, ?_⟩
  rw [place_of_boxes hboxes, MissingArt.fill_eq_pictures]

/-- Two candidates without artwork are passed over and the queue runs out, or they are shown as
they are and one is left. -/
theorem place_eq_pictures_exhausted :
    (∀ text ∈ ["0", "1, +2", "3"], (Grid.mk 2 500).Names text) ∧
    ∃ candidates : List Candidate,
      candidates.map (fun c => (c.credit.release, c.artwork)) =
        [("a", none), ("b", none), ("c", some ⟨3, "r"⟩), ("d", none)] ∧
      (Grid.mk 2 500).place ⟨true, true⟩ 500 candidates ["0", "1, +2", "3"] = .ok
        [⟨0, 0, 250, 250, "https://archive.org/download/mbid-r/mbid-r-3_thumb500.jpg",
            some ⟨"c", "C", "z"⟩⟩,
          ⟨0, 0, 499, 499, "https://listenbrainz.org/static/img/cover-art-placeholder.jpg", none⟩,
          ⟨250, 250, 249, 249, "https://listenbrainz.org/static/img/cover-art-placeholder.jpg",
            none⟩] ∧
      (Grid.mk 2 500).place ⟨false, true⟩ 250 candidates ["0", "1, +2", "3"] = .ok
        [⟨0, 0, 250, 250, "https://listenbrainz.org/static/img/cover-art-placeholder.jpg",
            some ⟨"a", "A", "x"⟩⟩,
          ⟨0, 0, 499, 499, "https://listenbrainz.org/static/img/cover-art-placeholder.jpg",
            some ⟨"b", "B", "y"⟩⟩,
          ⟨250, 250, 249, 249, "https://archive.org/download/mbid-r/mbid-r-3_thumb250.jpg",
            some ⟨"c", "C", "z"⟩⟩] ∧
      (Grid.mk 2 500).place ⟨false, false⟩ 300 candidates ["0", "1, +2", "3"] = .ok [] := by
  have h : ∀ text ∈ ["0", "1, +2", "3"], (Grid.mk 2 500).Names text := by decide
  have hboxes : ["0", "1, +2", "3"].mapM (Grid.mk 2 500).boxOfText =
      .ok [⟨⟨0, 0⟩, ⟨250, 250⟩⟩, ⟨⟨0, 0⟩, ⟨499, 499⟩⟩, ⟨⟨250, 250⟩, ⟨499, 499⟩⟩] := by decide
  have hplace (p : MissingArt) (size : Nat) (candidates : List Candidate) :
      (Grid.mk 2 500).place p size candidates ["0", "1, +2", "3"] = .ok
        ([⟨⟨0, 0⟩, ⟨250, 250⟩⟩, ⟨⟨0, 0⟩, ⟨499, 499⟩⟩, ⟨⟨250, 250⟩, ⟨499, 499⟩⟩].zipIdx.filterMap
          fun (box, i) => p.picture? size box (p.usable candidates)[i]?) := by
    obtain ⟨boxes, hnamed, hplace⟩ :=
      @place_eq_pictures ⟨2, 500⟩ p size candidates _ (by decide) h
    obtain rfl := Except.ok.inj ((mapM_eq_ok_iff.2 hnamed).symm.trans hboxes)
    exact hplace
  refine ⟨h, [⟨⟨"a", "A", "x"⟩, none⟩, ⟨⟨"b", "B", "y"⟩, none⟩, ⟨⟨"c", "C", "z"⟩, some ⟨3, "r"⟩⟩,
    ⟨⟨"d", "D", "w"⟩, none⟩], rfl, ?_, ?_, ?_⟩
  · rw [hplace]; decide
  · rw [hplace]; decide
  · rw [hplace]; decide

end Grid

end CoverMosaic
