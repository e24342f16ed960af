import CoverMosaic.Design.Partition
import CoverMosaic.Options
import CoverMosaic.Stores.Memory
/-!
# Covers of a user's listening

A composer holds options that have been checked, and makes covers for them: from candidates
whose artwork is known, or from release identifiers whose artwork it asks for. Identifiers that
are empty or unknown to the store are left out; the others keep their order and repetitions.

The words of a request are read before any store is asked: first the span of time, then the kind
of things ranked. Then come the user, the ranking and, for covers with images, the artwork. Of a
ranking only the first hundred entries are looked at; its count stays as it is.

| here | there |
| --- | --- |
| `Composer`, `Composer.ofOptions`   | `CoverArtGenerator`, `new` |
| `Composer.compose`                 | `generate_from_caa_ids` |
| `Composer.composeReleases`         | `load_images`; `requested` and `candidates` are its two loops |
| `Stores.topOf`, `.topOfWords`      | `fetch`, `fetch_user_stats` |
| `Ranking.releaseIds`               | `release_mbids` |
| `Composer.gridCover`, `Stores.artistCover`, `Composer.releaseCover` | `create_grid_stats_cover`, `create_artist_stats_cover`, `create_release_stats_cover` |
-/
namespace CoverMosaic

/-! ## Composers -/

/-- Checked options. -/
structure Composer where
  options : Options
  background : Background
  checked : options.check = .ok background

namespace Composer

/-- Checks the options; the first one out of range is the error. -/
def ofOptions (o : Options) : Except CoverError Composer :=
  match h : o.check with
  | .ok background => .ok ⟨o, background, h⟩
  | .error e => .error e

/-- The grid that covers are laid out on. -/
def grid (c : Composer) : Grid := ⟨c.options.dimension, c.options.imageSize⟩

/-- What happens where artwork is missing. -/
def missingArt (c : Composer) : MissingArt := ⟨c.options.skipMissing, c.options.showPlaceholder⟩

/-- Fills a layout with candidates. -/
def compose (c : Composer) (candidates : List Candidate) (layout : Layout) (size : Nat) :
    Except CoverError (List Image) := do
  let addresses ← layout.addresses c.options.dimension
  c.grid.place c.missingArt size candidates addresses

/-- The identifiers that are looked up: each once, in ascending order, the empty one left out. -/
def requested (releases : List String) : List String :=
  Text.ascending (releases.filter (· ≠ ""))

/-- The candidates for those identifiers that the store knows. -/
def candidates (known : String → Option ReleaseInfo) (releases : List String) : List Candidate :=
  (releases.filter (· ≠ "")).filterMap fun release =>
    (known release).map fun info => ⟨⟨release, info.title, info.artist⟩, info.artwork?⟩

/-- Asks for the artwork of some releases and fills a layout with them. -/
def composeReleases (c : Composer) (stores : Stores) (releases : List String) (layout : Layout)
    (size : Nat) : Inquiry (List Image) := do
  let known ← Inquiry.ask (.artwork (requested releases)) (stores.artwork (requested releases))
  Inquiry.ofExcept (c.compose (candidates known releases) layout size)

theorem ofOptions_eq_ok_iff {o : Options} {c : Composer} :
    ofOptions o = .ok c ↔ c.options = o := by
  obtain ⟨options, background, checked⟩ := c
  constructor
  · intro h
    unfold ofOptions at h
    split at h <;> simp at h
    exact h.1.symm
  · rintro rfl
    unfold ofOptions
    split
    · rename_i b hb; simp [Except.ok.inj (hb.symm.trans checked)]
    · rename_i e he; exact absurd (he.symm.trans checked) (by simp)

end Composer

/-! ## Covers -/

namespace Stores

/-- The first entries of a user's ranking, with its full count. -/
def topOf (s : Stores) (entity : Entity) (user : String) (period : Period) : Inquiry Ranking := do
  let found ← Inquiry.ask (.userByName user) (s.userByName user)
  let id ← Inquiry.require (.unknownUser user) found
  let found ← Inquiry.ask (.ranking id entity period) (s.ranking id entity period)
  let ranking ← Inquiry.require (.noStatistics user entity.name period.name) found
  return { ranking with entries := ranking.entries.take Limits.entryLimit }

/-- The same for a request in words. -/
def topOfWords (s : Stores) (entity user period : String) : Inquiry Ranking := do
  let period ← Inquiry.ofExcept (Period.ofName period)
  let entity ← Inquiry.ofExcept (Entity.ofName entity)
  s.topOf entity user period

end Stores

namespace Ranking

/-- The releases that the entries point at, in rank order. -/
def releaseIds (r : Ranking) : List String := r.entries.filterMap Entry.releaseId?

/-- The artists among the entries. -/
def artists (r : Ranking) : List RankedArtist := r.entries.filterMap Entry.artist?

/-- The releases among the entries. -/
def releases (r : Ranking) : List RankedRelease := r.entries.filterMap Entry.release?

end Ranking

/-- Release images on a design of the catalog. -/
structure GridCover where
  images : List Image
  /-- The phrase for the time that the ranking spans. -/
  phrase : String
  deriving DecidableEq, Repr

/-- Ranked artists, without images. -/
structure ArtistCover where
  artists : List RankedArtist
  caption : Caption
  deriving DecidableEq, Repr

/-- Release images on the plain design, with the ranked releases. -/
structure ReleaseCover where
  images : List Image
  releases : List RankedRelease
  caption : Caption
  deriving DecidableEq, Repr

/-- A user's top artists. -/
def Stores.artistCover (s : Stores) (user period : String) : Inquiry ArtistCover := do
  let period ← Inquiry.ofExcept (Period.ofName period)
  let ranking ← s.topOf .artists user period
  return ⟨ranking.artists, ⟨user, period.phrase, .artists, ranking.count⟩⟩

namespace Composer

/-- A user's top releases on the design of a number. -/
def gridCover (c : Composer) (s : Stores) (user period : String) (number : Nat) :
    Inquiry GridCover := do
  let period ← Inquiry.ofExcept (Period.ofName period)
  let ranking ← s.topOf .releases user period
  let images ← c.composeReleases s ranking.releaseIds (.numbered number)
    Limits.defaultThumbnailSize
  return ⟨images, period.phrase⟩

/-- A user's top releases on the plain design. -/
def releaseCover (c : Composer) (s : Stores) (user period : String) : Inquiry ReleaseCover := do
  let period ← Inquiry.ofExcept (Period.ofName period)
  let ranking ← s.topOf .releases user period
  let images ← c.composeReleases s ranking.releaseIds .plain Limits.defaultThumbnailSize
  return ⟨images, ranking.releases, ⟨user, period.phrase, .releases, ranking.count⟩⟩

end Composer

end CoverMosaic
