import CoverMosaic.Proofs.Stages
import CoverMosaic.Stores.Memory
/-!
# Whose cover is shown: `load_images` and `create_release_stats_cover`

Identifiers of releases are looked up as a set, joined with the answer again in the order in which
they were given, and used up cell by cell, some of them passed over. Still each image credits one
of them with what the store knows of it, and the credited ones keep their order: the images of a
queue credit a part of the queue (`fill_credits_sublist`), and the queue is a part of the
identifiers (`candidates_releases`).

Main results `composeReleases_attributed`, and `releaseCover_backed` for covers that list their
releases.
-/
namespace CoverMosaic

namespace Image

/-- The release that an image credits. -/
def release? (i : Image) : Option String := i.credit.map Credit.release

/-- The image and its credit say what is known of a release. -/
structure Presents (i : Image) (credit : Credit) (size : Nat) (info : ReleaseInfo) : Prop where
  title : credit.title = info.title
  artist : credit.artist = info.artist
  url : match info.image, info.imageRelease with
    | some image, some release => (Artwork.mk image release).thumbnail? size = some i.url
    | _, _ => i.url = Limits.placeholderUrl

end Image

/-! ## Images of a queue -/

namespace MissingArt

variable {p : MissingArt} {size : Nat} {box : Box} {i : Image}

theorem url_eq_of_url? {url : String} (h : p.url? = some url) : url = Limits.placeholderUrl := by
  unfold url? at h
  split at h <;> cases h
  rfl

theorem picture?_none (h : p.picture? size box none = some i) :
    i.credit = none ∧ i.url = Limits.placeholderUrl := by
  rw [picture?_no_art rfl] at h
  obtain ⟨url, hurl, rfl⟩ := Option.map_eq_some_iff.1 h
  exact ⟨rfl, url_eq_of_url? hurl⟩

theorem picture?_some {c : Candidate} (h : p.picture? size box (some c) = some i) :
    i.credit = some c.credit ∧ match c.artwork with
      | some a => a.thumbnail? size = some i.url
      | none => i.url = Limits.placeholderUrl := by
  cases hart : c.artwork with
  | some a =>
    rw [picture?_art (c := some c) hart] at h
    obtain ⟨url, hurl, rfl⟩ := Option.map_eq_some_iff.1 h
    exact ⟨rfl, hurl⟩
  | none =>
    rw [picture?_no_art (c := some c) hart] at h
    obtain ⟨url, hurl, rfl⟩ := Option.map_eq_some_iff.1 h
    exact ⟨rfl, url_eq_of_url? hurl⟩

theorem usable_sublist (p : MissingArt) (queue : List Candidate) :
    (p.usable queue).Sublist queue := by
  unfold usable
  split
  · exact List.filter_sublist
  · exact List.Sublist.refl queue

/-- The credits are some of the queue's, each once and in its order. -/
theorem fill_credits_sublist_usable : ∀ (boxes : List Box) (queue : List Candidate),
    ((p.fill size queue boxes).filterMap Image.credit).Sublist
      ((p.usable queue).map Candidate.credit)
  | [], _ => List.nil_sublist _
  | box :: boxes, queue => by
    obtain ⟨himage, hrest⟩ := settle_spec p size box queue
    have ih := fill_credits_sublist_usable boxes (p.settle size queue).rest
    rw [hrest] at ih
    rw [fill_cons, himage, List.filterMap_append]
    cases husable : p.usable queue with
    | nil =>
      rw [husable] at ih
      cases hpic : p.picture? size box none with
      | none => simpa [hpic] using ih
      | some i => simpa [hpic, (picture?_none hpic).1] using ih
    | cons c cs =>
      rw [husable] at ih
      cases hpic : p.picture? size box (some c) with
      | none => simpa [hpic] using ih.cons c.credit
      | some i => simpa [hpic, (picture?_some hpic).1] using ih

theorem fill_credits_sublist (boxes : List Box) (queue : List Candidate) :
    ((p.fill size queue boxes).filterMap Image.credit).Sublist (queue.map Candidate.credit) :=
  (fill_credits_sublist_usable boxes queue).trans ((p.usable_sublist queue).map _)

/-- An image shows a candidate of the queue or none. -/
theorem exists_picture_of_mem_fill {boxes : List Box} {queue : List Candidate}
    (h : i ∈ p.fill size queue boxes) :
    ∃ box, p.picture? size box none = some i ∨
      ∃ c ∈ queue, p.picture? size box (some c) = some i := by
  rw [fill_eq_pictures] at h
  obtain ⟨⟨box, k⟩, -, hpic⟩ := List.mem_filterMap.1 h
  refine ⟨box, ?_⟩
  cases hc : (p.usable queue)[k]? with
  | none => exact .inl (by simpa [hc] using hpic)
  | some c =>
    refine .inr ⟨c, (p.usable_sublist queue).subset (List.mem_of_getElem? hc), ?_⟩
    simpa [hc] using hpic

end MissingArt

/-! ## Candidates of some releases -/

namespace Composer

variable {c : Composer} {s : Stores} {known : String → Option ReleaseInfo}
  {releases : List String} {layout : Layout} {size : Nat} {images : List Image}

theorem candidates_releases (known : String → Option ReleaseInfo) (releases : List String) :
    (candidates known releases).map (fun c => c.credit.release) =
      releases.filter fun id => id ≠ "" ∧ (known id).isSome := by
  induction releases with
  | nil => rfl
  | cons id releases ih =>
    by_cases hid : id = ""
    · simpa [candidates, hid] using ih
    · cases hinfo : known id with
      | none => simpa [candidates, hid, hinfo] using ih
      | some info => simpa [candidates, hid, hinfo] using ih

theorem mem_candidates {candidate : Candidate} :
    candidate ∈ candidates known releases ↔ ∃ id ∈ releases, id ≠ "" ∧
      ∃ info, known id = some info ∧
        candidate = ⟨⟨id, info.title, info.artist⟩, info.artwork?⟩ := by
  simp only [candidates, List.mem_filterMap, List.mem_filter, Option.map_eq_some_iff]
  constructor
  · rintro ⟨id, ⟨hid, hne⟩, info, hinfo, rfl⟩
    exact ⟨id, hid, by simpa using hne, info, hinfo, rfl⟩
  · rintro ⟨id, hid, hne, info, hinfo, rfl⟩
    exact ⟨id, ⟨hid, by simpa using hne⟩, info, hinfo, rfl⟩

theorem compose_of_composeReleases (hknown : s.artwork (requested releases) = .ok known)
    (h : (c.composeReleases s releases layout size).result = .ok images) :
    c.compose (candidates known releases) layout size = .ok images := by
  rwa [composeReleases_result hknown] at h

/-- The images credit releases that were asked for and are known, in the order in which they were
asked for, each time with what is known of them; all other images are placeholders. -/
structure Attributes (known : String → Option ReleaseInfo) (releases : List String) (size : Nat)
    (images : List Image) : Prop where
  order : (images.filterMap Image.release?).Sublist releases
  asked : ∀ id ∈ images.filterMap Image.release?, id ≠ "" ∧ (known id).isSome
  credited : ∀ i ∈ images, ∀ credit, i.credit = some credit →
    ∃ info, known credit.release = some info ∧ i.Presents credit size info
  uncredited : ∀ i ∈ images, i.credit = none → i.url = Limits.placeholderUrl

theorem presents_of_picture? {p : MissingArt} {box : Box} {i : Image} {id : String}
    {info : ReleaseInfo}
    (h : p.picture? size box (some ⟨⟨id, info.title, info.artist⟩, info.artwork?⟩) = some i) :
    i.credit = some ⟨id, info.title, info.artist⟩ ∧
      i.Presents ⟨id, info.title, info.artist⟩ size info := by
  obtain ⟨hcredit, hurl⟩ := MissingArt.picture?_some h
  refine ⟨hcredit, rfl, rfl, ?_⟩
  simp only [ReleaseInfo.artwork?] at hurl
  cases himage : info.image with
  | none => simpa [himage, Artwork.ofParts?] using hurl
  | some image =>
    cases hrelease : info.imageRelease with
    | none => simpa [himage, hrelease, Artwork.ofParts?] using hurl
    | some release => simpa [himage, hrelease, Artwork.ofParts?] using hurl

theorem releases_sublist (h : c.compose (candidates known releases) layout size = .ok images) :
    (images.filterMap Image.release?).Sublist
      (releases.filter fun id => id ≠ "" ∧ (known id).isSome) := by
  obtain ⟨-, boxes, -, -, rfl⟩ := compose_eq_ok_iff.1 h
  have hcredits : ((c.missingArt.fill size (candidates known releases) boxes).filterMap
      Image.credit).Sublist ((candidates known releases).map Candidate.credit) :=
    MissingArt.fill_credits_sublist boxes _
  replace hcredits := hcredits.map Credit.release
  rw [List.map_filterMap, List.map_map] at hcredits
  rw [← candidates_releases]
  exact hcredits

theorem compose_attributes (h : c.compose (candidates known releases) layout size = .ok images) :
    Attributes known releases size images := by
  have hsub := releases_sublist h
  obtain ⟨-, boxes, -, -, rfl⟩ := compose_eq_ok_iff.1 h
  refine ⟨hsub.trans List.filter_sublist, fun id hid => ?_, fun i hi credit hcredit => ?_,
    fun i hi hcredit => ?_⟩
  · simpa using (List.mem_filter.1 (hsub.subset hid)).2
  · obtain ⟨box, hpic | ⟨_, hc, hpic⟩⟩ := MissingArt.exists_picture_of_mem_fill hi
    · cases hcredit.symm.trans (MissingArt.picture?_none hpic).1
    · obtain ⟨id, -, -, info, hinfo, rfl⟩ := mem_candidates.1 hc
      obtain ⟨hcredit', hpresents⟩ := presents_of_picture? hpic
      obtain rfl := Option.some.inj (hcredit.symm.trans hcredit')
      exact ⟨info, hinfo, hpresents⟩
  · obtain ⟨box, hpic | ⟨_, -, hpic⟩⟩ := MissingArt.exists_picture_of_mem_fill hi
    · exact (MissingArt.picture?_none hpic).2
    · cases hcredit.symm.trans (MissingArt.picture?_some hpic).1

/-- **Every image credits its release.** Whatever the artwork store answers, with releases left
out or others on top, and whatever the layout, the images of some releases credit them in the
order in which they were given, no more often than they were given, and with what the store
knows of them. -/
theorem composeReleases_attributed (hknown : s.artwork (requested releases) = .ok known)
    (h : (c.composeReleases s releases layout size).result = .ok images) :
    Attributes known releases size images :=
  compose_attributes (compose_of_composeReleases hknown h)

/-- An empty identifier, an unknown one, one that comes twice and one without an image; the store
answers with a release on top that was not asked for. -/
theorem composeReleases_attributed_repeated :
    ∃ (c : Composer) (s : Stores) (known : String → Option ReleaseInfo) (images : List Image),
      s.artwork (requested ["", "b", "u", "a", "b"]) = .ok known ∧ (known "c").isSome ∧
      (c.composeReleases s ["", "b", "u", "a", "b"] (.listed ["0,1", "3", "2"]) 250).result =
        .ok images ∧
      images.filterMap Image.release? = ["b", "a", "b"] ∧
      Attributes known ["", "b", "u", "a", "b"] 250 images := by
  let c : Composer := ⟨⟨2, 128, "white", false, true⟩, .white, by decide⟩
  let m : Memory := {
    artwork := [("a", ⟨"A", "x", none, some "r"⟩), ("b", ⟨"B", "y", some 7, some "r"⟩),
      ("c", ⟨"C", "z", some 9, some "s"⟩)]
    answersAll := true }
  have hresult : ∃ images, (c.composeReleases m.stores ["", "b", "u", "a", "b"]
      (.listed ["0,1", "3", "2"]) 250).result = .ok images ∧
      images.filterMap Image.release? = ["b", "a", "b"] := ⟨_, rfl, by decide⟩
  obtain ⟨images, himages, hcredits⟩ := hresult
  exact ⟨c, m.stores, _, images, rfl, rfl, himages, hcredits,
    composeReleases_attributed rfl himages⟩

end Composer

/-! ## Covers that list their releases -/

namespace Ranking

/-- Where no recording carries an identifier, all identifiers are those of releases. -/
theorem releaseIds_eq_of_recordings {ranking : Ranking}
    (h : ∀ x, .recording x ∈ ranking.entries → x.releaseId = none) :
    ranking.releaseIds = ranking.releases.filterMap RankedRelease.releaseId := by
  rw [releaseIds, releases, List.filterMap_filterMap]
  apply List.filterMap_congr
  intro entry hentry
  cases entry with
  | artist x => rfl
  | release x => rfl
  | recording x => exact h x hentry

end Ranking

namespace ReleaseCover

/-- The images credit releases that the cover lists, in the order in which it lists them. -/
def Backed (cover : ReleaseCover) : Prop :=
  (cover.images.filterMap Image.release?).Sublist
    (cover.releases.filterMap RankedRelease.releaseId)

instance (cover : ReleaseCover) : Decidable cover.Backed :=
  inferInstanceAs (Decidable (List.Sublist _ _))

end ReleaseCover

namespace Composer

variable {c : Composer} {s : Stores} {user period : String} {cover : ReleaseCover}

/-- **The images of a release cover** credit releases that the first entries of the ranking carry,
in rank order. These are releases that the cover lists, unless a recording carries one. -/
theorem releaseCover_backed (h : (c.releaseCover s user period).result = .ok cover) :
    ∃ ranking, (Request.releases user period).ranking? s = some ranking ∧
      (cover.images.filterMap Image.release?).Sublist ranking.top.releaseIds ∧
      ((∀ x, .recording x ∈ ranking.top.entries → x.releaseId = none) → cover.Backed) := by
  obtain ⟨ranking, p, hr, -, hpictures, hreleases, -⟩ :=
    (Request.put_goesThrough c s (.releases user period)).of_ok h
  have hplain : Layout.plain.addresses c.options.dimension =
      Catalog.design c.options.dimension 0 := rfl
  obtain ⟨known, -, himages⟩ := (pictures_iff hplain).1 hpictures
  have horder := (compose_attributes himages).order
  refine ⟨ranking, hr, horder, fun hnone => ?_⟩
  rwa [Ranking.releaseIds_eq_of_recordings hnone, ← Ranking.releases_eq_iff.2 hreleases] at horder

/-- Two releases, the first of which comes again as a recording without an identifier. -/
theorem releaseCover_backed_releases :
    ∃ (c : Composer) (s : Stores) (cover : ReleaseCover),
      (c.releaseCover s "rob" "week").result = .ok cover ∧
      cover.images.filterMap Image.release? = ["r", "q"] ∧ cover.Backed := by
  let c : Composer := ⟨⟨2, 128, "white", true, false⟩, .white, by decide⟩
  let m : Memory := {
    users := [("rob", 7)]
    rankings := [((7, .releases, .week),
      ⟨[.release ⟨some "r", "R", "A", [], 9⟩, .recording ⟨none, "T", "A", some "R", none, 7⟩,
        .release ⟨some "q", "Q", "A", [], 5⟩], 3⟩)]
    artwork := [("q", ⟨"Q", "A", some 4, some "q"⟩), ("r", ⟨"R", "A", some 3, some "r"⟩)] }
  have hcover : ∃ cover, (c.releaseCover m.stores "rob" "week").result = .ok cover ∧
      cover.images.filterMap Image.release? = ["r", "q"] := ⟨_, rfl, by decide⟩
  obtain ⟨cover, hresult, hcredits⟩ := hcover
  obtain ⟨ranking, hr, -, hbacked⟩ := releaseCover_backed hresult
  obtain rfl : _ = ranking := Option.some.inj hr
  refine ⟨c, m.stores, cover, hresult, hcredits, hbacked fun x hx => ?_⟩
  have hx : x = ⟨none, "T", "A", some "R", none, 7⟩ := by simpa [Ranking.top] using hx
  rw [hx]

/-- A recording that carries a release is enough for an image of a release that is not listed. -/
theorem releaseCover_unlisted :
    ∃ (c : Composer) (s : Stores) (cover : ReleaseCover),
      (c.releaseCover s "rob" "week").result = .ok cover ∧
      cover.images.filterMap Image.release? = ["r"] ∧ cover.releases = [] ∧ ¬ cover.Backed := by
  refine ⟨⟨⟨2, 128, "white", true, false⟩, .white, by decide⟩,
    Memory.stores {
      users := [("rob", 7)]
      rankings := [((7, .releases, .week),
        ⟨[.recording ⟨none, "Track", "Artist", none, some "r", 5⟩], 1⟩)]
      artwork := [("r", ⟨"Title", "Artist", some 3, some "r"⟩)] },
    _, rfl, by decide, rfl, by decide⟩

end Composer

end CoverMosaic
