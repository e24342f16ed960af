import CoverMosaic.Json
import CoverMosaic.Listening.Ranking
/-!
# The JSON form of what stores hold

Each kind of entry is a row of its own. An entry of any kind carries its kind in the field
`entity`, or as the first item of an array, before the columns. The artists of a release may be
left out of an object, and are none then. What is known of a release is a row too.

The columns are the fields of `ArtistRecord`, `ReleaseRecord`, `RecordingRecord`, `StatsPage` and
`ArtworkInfo` under their own names.
-/
namespace CoverMosaic

namespace RankedArtist

/-- The columns of the JSON form. -/
def columns : List String := ["artist_mbid", "artist_name", "listen_count"]

/-- Reads the JSON form, an object or an array. -/
def ofJson? (j : Json) : Option RankedArtist :=
  match j.columns? columns with
  | some [artistId, artistName, listens] => do
    return {
      artistId := ← Json.nullable Json.string? artistId
      artistName := ← Json.string? artistName
      listens := ← Json.word? listens }
  | _ => none

/-- The fields of the JSON form, every column among them. -/
def fields (r : RankedArtist) : List (String × Json) :=
  [("artist_mbid", Json.ofOption Json.str r.artistId),
   ("artist_name", .str r.artistName),
   ("listen_count", Json.ofWord r.listens)]

end RankedArtist

namespace RankedRelease

/-- The columns of the JSON form. -/
def columns : List String :=
  ["release_mbid", "release_name", "artist_name", "artist_mbids", "listen_count"]

/-- Reads the JSON form, an object or an array. -/
def ofJson? (j : Json) : Option RankedRelease :=
  match j.columns? columns with
  | some [releaseId, releaseName, artistName, artistIds, listens] => do
    return {
      releaseId := ← Json.nullable Json.string? releaseId
      releaseName := ← Json.string? releaseName
      artistName := ← Json.string? artistName
      artistIds := ← Json.withDefault [] Json.strings? artistIds
      listens := ← Json.word? listens }
  | _ => none

/-- The fields of the JSON form, every column among them. -/
def fields (r : RankedRelease) : List (String × Json) :=
  [("release_mbid", Json.ofOption Json.str r.releaseId),
   ("release_name", .str r.releaseName),
   ("artist_name", .str r.artistName),
   ("artist_mbids", Json.ofStrings r.artistIds),
   ("listen_count", Json.ofWord r.listens)]

end RankedRelease

namespace RankedRecording

/-- The columns of the JSON form. -/
def columns : List String :=
  ["recording_mbid", "track_name", "artist_name", "release_name", "release_mbid", "listen_count"]

/-- Reads the JSON form, an object or an array. -/
def ofJson? (j : Json) : Option RankedRecording :=
  match j.columns? columns with
  | some [recordingId, trackName, artistName, releaseName, releaseId, listens] => do
    return {
      recordingId := ← Json.nullable Json.string? recordingId
      trackName := ← Json.string? trackName
      artistName := ← Json.string? artistName
      releaseName := ← Json.nullable Json.string? releaseName
      releaseId := ← Json.nullable Json.string? releaseId
      listens := ← Json.word? listens }
  | _ => none

/-- The fields of the JSON form, every column among them. -/
def fields (r : RankedRecording) : List (String × Json) :=
  [("recording_mbid", Json.ofOption Json.str r.recordingId),
   ("track_name", .str r.trackName),
   ("artist_name", .str r.artistName),
   ("release_name", Json.ofOption Json.str r.releaseName),
   ("release_mbid", Json.ofOption Json.str r.releaseId),
   ("listen_count", Json.ofWord r.listens)]

end RankedRecording

namespace Entry

/-- The field that carries the kind of an entry. -/
def tagField : String := "entity"

/-- The kind of an entry. -/
def tag : Entry → String
  | artist _ => "artist"
  | release _ => "release"
  | recording _ => "recording"

/-- The fields of an entry, without its kind. -/
def fields : Entry → List (String × Json)
  | artist r => r.fields
  | release r => r.fields
  | recording r => r.fields

/-- Reads the columns of an entry of a known kind. -/
def ofTagged? (tag : String) (j : Json) : Option Entry :=
  if tag = "artist" then (RankedArtist.ofJson? j).map artist
  else if tag = "release" then (RankedRelease.ofJson? j).map release
  else if tag = "recording" then (RankedRecording.ofJson? j).map recording
  else none

/-- Reads an entry of any kind, an object with a tag or an array that starts with one. -/
def ofJson? : Json → Option Entry
  | .obj fields => match Json.field? tagField fields with
    | some (.str tag) => ofTagged? tag (.obj fields)
    | _ => none
  | .arr (.str tag :: items) => ofTagged? tag (.arr items)
  | _ => none

/-- The JSON form, an object with the kind and every column. -/
def toJson (e : Entry) : Json := .obj ((tagField, .str e.tag) :: e.fields)

end Entry

namespace Ranking

/-- The columns of the JSON form. -/
def columns : List String := ["records", "count"]

/-- Reads an array of entries. -/
def entries? : Option Json → Option (List Entry)
  | some (.arr items) => items.mapM Entry.ofJson?
  | _ => none

/-- Reads the JSON form, an object or an array. -/
def ofJson? (j : Json) : Option Ranking :=
  match j.columns? columns with
  | some [entries, count] => do
    return { entries := ← entries? entries, count := ← Json.word? count }
  | _ => none

/-- The JSON form, an object with both columns. -/
def toJson (r : Ranking) : Json :=
  .obj [("records", .arr (r.entries.map Entry.toJson)), ("count", Json.ofWord r.count)]

end Ranking

namespace ReleaseInfo

/-- The columns of the JSON form. -/
def columns : List String := ["title", "artist", "caa_id", "caa_release_mbid"]

/-- Reads the JSON form, an object or an array. -/
def ofJson? (j : Json) : Option ReleaseInfo :=
  match j.columns? columns with
  | some [title, artist, image, imageRelease] => do
    return {
      title := ← Json.string? title
      artist := ← Json.string? artist
      image := ← Json.nullable Json.word? image
      imageRelease := ← Json.nullable Json.string? imageRelease }
  | _ => none

/-- The JSON form, an object with every column. -/
def toJson (info : ReleaseInfo) : Json :=
  .obj [
    ("title", .str info.title),
    ("artist", .str info.artist),
    ("caa_id", Json.ofOption Json.ofWord info.image),
    ("caa_release_mbid", Json.ofOption Json.str info.imageRelease)]

end ReleaseInfo

end CoverMosaic
