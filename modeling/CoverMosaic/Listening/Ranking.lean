import CoverMosaic.Placement
/-!
# Listening statistics

A statistic ranks things of one kind by how often a user listened to them in one span of time. Kinds
and spans have a name each, which requests and stores share; a span has a phrase for captions too.

A ranking lists what a user listened to, best first, together with the full number of things
ranked. Its entries are artists, releases and recordings; the last two may point at a release of
the archive. Of a release the artwork store knows title and artist and, where the archive has an
image, its number and the release that it is filed under.

| here | there |
| --- | --- |
| `Entity`, `Period`                   | `StatsEntity`, `StatsRange`; `name` is `as_str`, `phrase` is `label` |
| `Ranking`, `Entry`                   | `StatsPage`, `EntityRecord` |
| `RankedArtist`, `RankedRelease`, `RankedRecording` | `ArtistRecord`, `ReleaseRecord`, `RecordingRecord` |
| `Entry.artist?`, `.release?`, `.releaseId?` | `as_artist`, `as_release`, `release_mbid` |
| `ReleaseInfo`                        | `ArtworkInfo` |
| `Caption`, `CalendarDate.iso`        | `StatsCoverMetadata`, whose day is not in the model, and `iso_date` |
-/
namespace CoverMosaic

/-! ## Kinds of things -/

/-- The kind of things that a statistic ranks. -/
inductive Entity where
  | artists | releases | recordings
  deriving DecidableEq, Repr

namespace Entity

/-- Every kind, in the order in which they are listed. -/
def all : List Entity := [.artists, .releases, .recordings]

/-- The name of a kind. -/
def name : Entity → String
  | .artists => "artists"
  | .releases => "releases"
  | .recordings => "recordings"

/-- The kind of a name, exactly as it is written. -/
def ofName (word : String) : Except CoverError Entity :=
  match all.find? (·.name = word) with
  | some entity => .ok entity
  | none => .error (.badWord "stats entity" word "must be one of artists, releases or recordings")

theorem mem_all (e : Entity) : e ∈ all := by cases e <;> decide

theorem ofName_name (e : Entity) : ofName e.name = .ok e := by cases e <;> rfl

end Entity

/-! ## Spans of time -/

/-- The time that a statistic spans. -/
inductive Period where
  | week | month | quarter | halfYear | year | allTime
  | thisWeek | thisMonth | thisYear
  deriving DecidableEq, Repr

namespace Period

/-- Every span, in the order in which they are listed. -/
def all : List Period :=
  [.week, .month, .quarter, .halfYear, .year, .allTime, .thisWeek, .thisMonth, .thisYear]

/-- The name of a span. -/
def name : Period → String
  | .week => "week"
  | .month => "month"
  | .quarter => "quarter"
  | .halfYear => "half_yearly"
  | .year => "year"
  | .allTime => "all_time"
  | .thisWeek => "this_week"
  | .thisMonth => "this_month"
  | .thisYear => "this_year"

/-- The English phrase of a span. -/
def phrase : Period → String
  | .week => "last week"
  | .month => "last month"
  | .quarter => "last quarter"
  | .halfYear => "last 6 months"
  | .year => "last year"
  | .allTime => "of all time"
  | .thisWeek => "this week"
  | .thisMonth => "this month"
  | .thisYear => "this year"

/-- The span of a name, exactly as it is written. -/
def ofName (word : String) : Except CoverError Period :=
  match all.find? (·.name = word) with
  | some period => .ok period
  | none => .error (.badWord "time range" word "invalid date range given")

theorem mem_all (p : Period) : p ∈ all := by cases p <;> decide

theorem ofName_name (p : Period) : ofName p.name = .ok p := by cases p <;> rfl

end Period

/-! ## Rankings -/

/-- Listens to one artist. -/
structure RankedArtist where
  artistId : Option String
  artistName : String
  listens : UInt64
  deriving DecidableEq, Repr

/-- Listens to one release. -/
structure RankedRelease where
  releaseId : Option String
  releaseName : String
  artistName : String
  artistIds : List String
  listens : UInt64
  deriving DecidableEq, Repr

/-- Listens to one recording. -/
structure RankedRecording where
  recordingId : Option String
  trackName : String
  artistName : String
  releaseName : Option String
  releaseId : Option String
  listens : UInt64
  deriving DecidableEq, Repr

/-- One entry of a ranking. -/
inductive Entry where
  | artist (r : RankedArtist)
  | release (r : RankedRelease)
  | recording (r : RankedRecording)
  deriving DecidableEq, Repr

namespace Entry

/-- The artist, if the entry is one. -/
def artist? : Entry → Option RankedArtist
  | artist r => some r
  | _ => none

/-- The release, if the entry is one. -/
def release? : Entry → Option RankedRelease
  | release r => some r
  | _ => none

/-- The release that an entry points at, if it is known. -/
def releaseId? : Entry → Option String
  | artist _ => none
  | release r => r.releaseId
  | recording r => r.releaseId

end Entry

/-- A ranking as it is stored. -/
structure Ranking where
  /-- The entries, best first. -/
  entries : List Entry
  /-- How many things were ranked; there may be fewer entries. -/
  count : UInt64
  deriving DecidableEq, Repr

/-! ## Releases -/

/-- What the artwork store knows of one release. -/
structure ReleaseInfo where
  title : String
  artist : String
  image : Option UInt64
  imageRelease : Option String
  deriving DecidableEq, Repr

namespace ReleaseInfo

/-- The artwork of a release, where both parts are known. -/
def artwork? (info : ReleaseInfo) : Option Artwork := Artwork.ofParts? info.image info.imageRelease

end ReleaseInfo

/-! ## Captions -/

/-- What a cover says about the ranking behind it. -/
structure Caption where
  user : String
  /-- The phrase for the time that the ranking spans. -/
  phrase : String
  entity : Entity
  /-- How many things were ranked, shown or not. -/
  count : UInt64
  deriving DecidableEq, Repr

/-- A day of the calendar. -/
structure CalendarDate where
  year : Int
  month : Nat
  day : Nat
  deriving DecidableEq, Repr

namespace CalendarDate

/-- The sign of a year, where it needs one. -/
def yearSign (year : Int) : List Char :=
  if year < 0 then ['-'] else if 9999 < year then ['+'] else []

/-- Year, month and day with a hyphen between two of them. -/
def iso (d : CalendarDate) : String :=
  String.ofList (yearSign d.year ++ Text.Decimal.padded 4 d.year.natAbs ++
    '-' :: (Text.Decimal.padded 2 d.month ++ '-' :: Text.Decimal.padded 2 d.day))

end CalendarDate

end CoverMosaic
