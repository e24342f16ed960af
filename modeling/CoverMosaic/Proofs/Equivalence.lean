import CoverMosaic.Proofs.Noninterference
/-!
# Covers that come out the same: `load_images`, and the grid and release covers

Two pairs of requests that cannot be told apart by what they are answered with.

Passing over candidates without artwork is the same as never having asked for them. There are four
reasons to drop a release: its identifier is empty, the store does not know it, or it knows it
without an image or without the release that the image is filed under. The first two are dropped
before the queue is built and the others while cells draw on it. What the cells show depends on the
usable candidates alone (`fill_congr`), and these are the candidates of the releases with a picture
(`filter_candidates`).

The release cover takes the plain design and the grid cover of number zero asks the catalog for it,
which is the same for every dimension that passes the check (`releaseCover_keepsStep`).

Main results `composeReleases_skip` and `releaseCover_agrees`.
-/
namespace CoverMosaic

/-! ## Queues with the same usable candidates -/

namespace MissingArt

variable {p q : MissingArt} {size : Nat} {queue queue' : List Candidate}

theorem picture?_congr (h : p.placeholder = q.placeholder) (box : Box) (c : Option Candidate) :
    p.picture? size box c = q.picture? size box c := by
  have hurl : p.url? = q.url? := by simp [url?, h]
  cases hart : c.bind Candidate.artwork with
  | none => rw [picture?_no_art hart, picture?_no_art hart, hurl]
  | some a => rw [picture?_art hart, picture?_art hart]

theorem fill_congr (h : p.placeholder = q.placeholder) (husable : p.usable queue = q.usable queue')
    (boxes : List Box) : p.fill size queue boxes = q.fill size queue' boxes := by
  rw [fill_eq_pictures, fill_eq_pictures, husable]
  apply List.filterMap_congr
  intro cell _
  exact picture?_congr h _ _

theorem usable_of_skip (h : p.skip = true) (queue : List Candidate) :
    p.usable queue = queue.filter (·.artwork.isSome) := by
  simp [usable, h]

theorem usable_eq_self (h : ∀ c ∈ queue, c.artwork.isSome) : p.usable queue = queue := by
  unfold usable
  by_cases hp : p.skip = true
  · rw [if_pos hp]; exact List.filter_eq_self.2 h
  · rw [if_neg hp]

end MissingArt

theorem Grid.place_congr {g : Grid} {p q : MissingArt} {size : Nat} {queue queue' : List Candidate}
    (h : p.placeholder = q.placeholder) (husable : p.usable queue = q.usable queue')
    (addresses : List String) :
    g.place p size queue addresses = g.place q size queue' addresses := by
  unfold place
  simp only [MissingArt.fill_congr h husable]

theorem ReleaseInfo.artwork?_isSome_iff {info : ReleaseInfo} :
    info.artwork?.isSome ↔ info.image.isSome ∧ info.imageRelease.isSome := by
  obtain ⟨title, artist, image, release⟩ := info
  cases image <;> cases release <;> simp [artwork?, Artwork.ofParts?]

/-! ## Skipping -/

/-- The artwork store answers every question, and tells of each release that is asked for the same,
whatever else is asked for. Nothing is said of releases that it adds. -/
def Stores.AnswersSingly (s : Stores) (known : String → Option ReleaseInfo) : Prop :=
  ∀ ids, ∃ answer, s.artwork ids = .ok answer ∧ ∀ id ∈ ids, answer id = known id

theorem Memory.stores_answersSingly {m : Memory} (h : m.artworkFailure = none) :
    m.stores.AnswersSingly fun id => m.artwork.lookup id := by
  intro ids
  simp only [stores, h]
  refine ⟨_, rfl, fun id hid => ?_⟩
  simp [hid]

namespace Composer

variable {c c' : Composer} {s : Stores} {known : String → Option ReleaseInfo}
  {queue queue' : List Candidate}

/-- The release has an identifier, and the store knows it with an image and with the release that
the image is filed under. -/
def Pictured (known : String → Option ReleaseInfo) (id : String) : Prop :=
  id ≠ "" ∧ ∃ info, known id = some info ∧ info.image.isSome ∧ info.imageRelease.isSome

instance (known : String → Option ReleaseInfo) (id : String) : Decidable (Pictured known id) :=
  inferInstanceAs (Decidable
    (id ≠ "" ∧ ∃ info ∈ known id, info.image.isSome ∧ info.imageRelease.isSome))

theorem compose_congr (hgrid : c.grid = c'.grid)
    (hshow : c.missingArt.placeholder = c'.missingArt.placeholder)
    (husable : c.missingArt.usable queue = c'.missingArt.usable queue') (layout : Layout)
    (size : Nat) : c.compose queue layout size = c'.compose queue' layout size := by
  show (layout.addresses c.grid.dimension >>= c.grid.place c.missingArt size queue) =
    (layout.addresses c'.grid.dimension >>= c'.grid.place c'.missingArt size queue')
  rw [hgrid]
  congr 1
  funext addresses
  exact Grid.place_congr hshow husable addresses

/-- The candidates with artwork are those of the releases with a picture. -/
theorem filter_candidates (known : String → Option ReleaseInfo) (releases : List String) :
    (candidates known releases).filter (·.artwork.isSome) =
      candidates known (releases.filter (Pictured known)) := by
  induction releases with
  | nil => rfl
  | cons id releases ih =>
    by_cases hid : id = ""
    · simpa [candidates, Pictured, hid] using ih
    · cases hinfo : known id with
      | none => simpa [candidates, Pictured, hid, hinfo] using ih
      | some info =>
        by_cases hart : info.artwork?.isSome
        · have hparts := ReleaseInfo.artwork?_isSome_iff.1 hart
          simpa [candidates, Pictured, hid, hinfo, hart, hparts] using ih
        · have hparts := mt ReleaseInfo.artwork?_isSome_iff.2 hart
          simpa [candidates, Pictured, hid, hinfo, hart, hparts] using ih

theorem composeReleases_singly (c : Composer) (hs : s.AnswersSingly known) (releases : List String)
    (layout : Layout) (size : Nat) :
    (c.composeReleases s releases layout size).result =
      c.compose (candidates known releases) layout size := by
  obtain ⟨answer, hanswer, hknown⟩ := hs (requested releases)
  rw [composeReleases_result hanswer, candidates_congr hknown]

/-- **Skipping is never having asked.** With an artwork store that tells of each release by itself,
a composer that passes over missing artwork makes of any releases what it makes of those with a
picture, and what a composer that does not pass over it makes of these. The same holds of the error
where the layout has one. -/
theorem composeReleases_skip {o : Options} {skipping keeping : Composer}
    (hskipping : ofOptions { o with skipMissing := true } = .ok skipping)
    (hkeeping : ofOptions { o with skipMissing := false } = .ok keeping)
    (hs : s.AnswersSingly known) (releases : List String) (layout : Layout) (size : Nat) :
    (skipping.composeReleases s releases layout size).result =
        (keeping.composeReleases s (releases.filter (Pictured known)) layout size).result ∧
      (skipping.composeReleases s releases layout size).result =
        (skipping.composeReleases s (releases.filter (Pictured known)) layout size).result := by
  have hskip := ofOptions_eq_ok_iff.1 hskipping
  have hkeep := ofOptions_eq_ok_iff.1 hkeeping
  have hgrid : skipping.grid = keeping.grid := by simp [grid, hskip, hkeep]
  have hshow : skipping.missingArt.placeholder = keeping.missingArt.placeholder := by
    simp [missingArt, hskip, hkeep]
  -- of the candidates that are left none is passed over, whatever the policy
  have hart : ∀ c ∈ candidates known (releases.filter (Pictured known)), c.artwork.isSome := by
    intro c hc
    rw [← filter_candidates] at hc
    exact (List.mem_filter.1 hc).2
  have husable : skipping.missingArt.usable (candidates known releases) =
      candidates known (releases.filter (Pictured known)) := by
    rw [MissingArt.usable_of_skip (by simp [missingArt, hskip]), filter_candidates]
  simp only [composeReleases_singly _ hs]
  constructor
  · apply compose_congr hgrid hshow
    rw [husable, MissingArt.usable_eq_self hart]
  · apply compose_congr rfl rfl
    rw [husable, MissingArt.usable_eq_self hart]

/-- One release is dropped for each of the four reasons, the one that is left comes twice, and two
cells of the design stay without a candidate. -/
theorem composeReleases_skip_each_reason :
    ∃ (skipping keeping : Composer) (s : Stores) (known : String → Option ReleaseInfo)
      (images : List Image),
      ofOptions ⟨2, 128, "white", true, true⟩ = .ok skipping ∧
      ofOptions ⟨2, 128, "white", false, true⟩ = .ok keeping ∧ s.AnswersSingly known ∧
      ["", "a", "u", "b", "c", "a"].filter (Pictured known) = ["a", "a"] ∧
      (skipping.composeReleases s ["", "a", "u", "b", "c", "a"] .plain 250).result = .ok images ∧
      images.map (·.credit.map Credit.release) = [some "a", some "a", none, none] ∧
      (keeping.composeReleases s ["a", "a"] .plain 250).result = .ok images ∧
      (skipping.composeReleases s ["a", "a"] .plain 250).result = .ok images := by
  let o : Options := ⟨2, 128, "white", true, true⟩
  let skipping : Composer := ⟨{ o with skipMissing := true }, .white, by decide⟩
  let keeping : Composer := ⟨{ o with skipMissing := false }, .white, by decide⟩
  let m : Memory := {
    artwork := [("a", ⟨"A", "x", some 7, some "a"⟩), ("b", ⟨"B", "y", none, some "b"⟩),
      ("c", ⟨"C", "z", some 9, none⟩)] }
  have hskipping : ofOptions { o with skipMissing := true } = .ok skipping :=
    ofOptions_eq_ok_iff.2 rfl
  have hkeeping : ofOptions { o with skipMissing := false } = .ok keeping :=
    ofOptions_eq_ok_iff.2 rfl
  have hs : m.stores.AnswersSingly fun id => m.artwork.lookup id :=
    Memory.stores_answersSingly rfl
  have hleft : ["", "a", "u", "b", "c", "a"].filter (Pictured fun id => m.artwork.lookup id) =
      ["a", "a"] := by decide
  have hresult : ∃ images, (skipping.composeReleases m.stores ["", "a", "u", "b", "c", "a"] .plain
      250).result = .ok images ∧
      images.map (·.credit.map Credit.release) = [some "a", some "a", none, none] :=
    ⟨_, rfl, by decide⟩
  obtain ⟨images, himages, hcredits⟩ := hresult
  obtain ⟨hkeep, hskip⟩ := composeReleases_skip hskipping hkeeping hs
    ["", "a", "u", "b", "c", "a"] .plain 250
  rw [himages, hleft] at hkeep hskip
  exact ⟨skipping, keeping, m.stores, _, images, hskipping, hkeeping, hs, hleft, himages, hcredits,
    hkeep.symm, hskip.symm⟩

end Composer

/-! ## The plain design -/

namespace Request

variable {c : Composer} {s : Stores} {r : Request} {stage : Stage} {d n : Nat}

/-- Only the choice of a design can fail for want of one. -/
theorem error?_eq_unknownDesign (h : r.error? c s stage = some (.unknownDesign d n)) :
    stage = .chooseDesign := by
  have hunless {α : Type} {e : CoverError} {found : Option α}
      (he : Inquiry.errorUnless e found = some (.unknownDesign d n)) : e = .unknownDesign d n := by
    cases found with
    | none => exact Option.some.inj he
    | some a => cases he
  have hstore {operation : String} {failure : Option String} (he : failure.map
      (CoverError.storeFailed operation) = some (.unknownDesign d n)) : False := by
    cases failure <;> cases he
  cases stage with
  | chooseDesign => rfl
  | readPeriod => cases hunless h
  | readEntity => cases hunless h
  | requireUser => cases hunless h
  | requireRanking => cases hunless h
  | askUser => exact (hstore h).elim
  | askRanking => exact (hstore h).elim
  | askArtwork => exact (hstore h).elim

/-- The design of number zero is never missing. -/
theorem put_ne_unknownDesign (hr : r.design = 0) :
    (r.put c s).result ≠ .error (.unknownDesign d n) := by
  intro h
  cases r.put_goesThrough c s with
  | passed _ _ answer hresult _ => cases h.symm.trans hresult
  | failed before stage after _ _ e herror _ hresult =>
    obtain rfl := Except.error.inj (h.symm.trans hresult)
    obtain rfl := error?_eq_unknownDesign herror
    have hpos := Catalog.registered_pos c.in_range.1
    rw [error?, hr, if_pos hpos] at herror
    cases herror

end Request

namespace Composer

variable (c : Composer) (s : Stores)

open Inquiry (KeepsStep)

theorem composeReleases_plain (releases : List String) (size : Nat) :
    c.composeReleases s releases .plain size = c.composeReleases s releases (.numbered 0) size :=
  rfl

/-- Whatever the stores answer, the two covers put the same questions and end alike. -/
theorem releaseCover_keepsStep (user period : String) :
    KeepsStep (fun _ => True) (fun release grid => release.images = grid.images ∧
        release.caption.phrase = grid.phrase)
      (c.releaseCover s user period) (c.gridCover s user period 0) := by
  refine .bind_same (.refl _) fun p => ?_
  refine .bind_same (.refl _) fun ranking => ?_
  rw [composeReleases_plain]
  refine .bind_same (.refl _) fun images => ?_
  intro _
  exact ⟨rfl, .answered ⟨rfl, rfl⟩⟩

/-- **The release cover shows the grid cover of number zero.** Both put the same questions in the
same order. Either both fail with the same error, which is never for want of a design, or both
succeed and show the same images and the same phrase for the time. -/
theorem releaseCover_agrees (user period : String) :
    (c.releaseCover s user period).calls = (c.gridCover s user period 0).calls ∧
    Alike (fun release grid => release.images = grid.images ∧ release.caption.phrase = grid.phrase)
      (c.releaseCover s user period).result (c.gridCover s user period 0).result ∧
    ∀ d n, (c.releaseCover s user period).result ≠ .error (.unknownDesign d n) := by
  obtain ⟨hcalls, hresult⟩ := c.releaseCover_keepsStep s user period fun _ _ => trivial
  refine ⟨hcalls, hresult, fun d n => ?_⟩
  exact Request.put_ne_unknownDesign (r := .releases user period) rfl

end Composer

end CoverMosaic
