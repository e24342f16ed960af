import CoverMosaic.Text
/-!
# Limits and errors

The bounds that options are held to, the fixed values of the cover art archive, and every way in
which making a cover can fail, one constructor for each cause. The wording of an error is in
`CoverError.message` alone, and `CoverError.kind` groups the causes by what a caller can do.

| here | there |
| --- | --- |
| `Limits.entryLimit`                      | `NUMBER_OF_STATS` |
| `Limits.thumbnailSizes`                  | `SUPPORTED_COVER_ART_SIZES` |
| `Limits.defaultThumbnailSize`            | `DEFAULT_COVER_ART_SIZE` |
| `Limits.placeholderUrl`                  | `CAA_MISSING_IMAGE` |
| `Limits.archiveRoot`                     | `CAA_ARCHIVE_BASE` |
| `CoverError`                             | `CoverArtError`: `InvalidParameter`, `UnknownLayout`, `InvalidAddress`, `Validation`, `UserNotFound`, `StatsNotFound`, `Store`, in this order |
| `CoverError.kind`, `.message`, `.source?` | `kind`, the displayed text and `source` of an error |
-/
namespace CoverMosaic

/-! ## Limits -/

namespace Limits

/-- Smallest number of tiles on a side. -/
def minDimension : Nat := 2

/-- Largest number of tiles on a side. -/
def maxDimension : Nat := 5

/-- Smallest side of the finished image in pixels. -/
def minImageSize : Nat := 128

/-- Largest side of the finished image in pixels. -/
def maxImageSize : Nat := 1024

/-- Entries of a ranking that a cover looks at. -/
def entryLimit : Nat := 100

/-- Thumbnail sizes that the archive keeps. -/
def thumbnailSizes : List Nat := [250, 500]

theorem mem_thumbnailSizes {size : Nat} : size ∈ thumbnailSizes ↔ size = 250 ∨ size = 500 := by
  simp [thumbnailSizes]

/-- Thumbnail size used where a request names none. -/
def defaultThumbnailSize : Nat := 500

/-- Background used where the options name none. -/
def defaultBackground : String := "#FFFFFF"

/-- Image shown where there is no artwork. -/
def placeholderUrl : String := "https://listenbrainz.org/static/img/cover-art-placeholder.jpg"

/-- Root of the archive's image addresses. -/
def archiveRoot : String := "https://archive.org/download"

end Limits

/-! ## Errors -/

/-- Why a cover could not be made. -/
inductive CoverError where
  /-- An option of the grid is out of range. -/
  | badOption (parameter value reason : String)
  /-- The catalog has no design of that number for that dimension. -/
  | unknownDesign (dimension number : Nat)
  /-- A tile address is malformed, leaves the grid, or breaks a partition. -/
  | badAddress (text : String)
  /-- A word of the request is not one of the words allowed there. -/
  | badWord (field value reason : String)
  /-- No user has that name. -/
  | unknownUser (name : String)
  /-- No statistics have been worked out for the user. -/
  | noStatistics (user entity period : String)
  /-- A store failed with a message of its own. -/
  | storeFailed (operation source : String)
  deriving DecidableEq, Repr

namespace CoverError

/-- What a caller can do about an error. -/
inductive Kind where
  | configuration | address | validation | notFound | store
  deriving DecidableEq, Repr

/-- The group of an error. -/
def kind : CoverError → Kind
  | badOption .. | unknownDesign .. => .configuration
  | badAddress .. => .address
  | badWord .. => .validation
  | unknownUser .. | noStatistics .. => .notFound
  | storeFailed .. => .store

/-- The wording of an error. -/
def message : CoverError → String
  | badOption parameter value reason =>
    "Invalid parameter '" ++ parameter ++ "' = '" ++ value ++ "': " ++ reason
  | unknownDesign dimension number =>
    "No layout " ++ Text.Decimal.text number ++ " is registered for dimension " ++
      Text.Decimal.text dimension
  | badAddress text => "Invalid address " ++ text ++ " specified."
  | badWord field value reason => "Invalid " ++ field ++ " '" ++ value ++ "': " ++ reason
  | unknownUser name => "User " ++ name ++ " not found"
  | noStatistics user entity period =>
    "Stats for user " ++ user ++ " not found/calculated (" ++ entity ++ ", " ++ period ++ ")"
  | storeFailed operation source => "Store error during " ++ operation ++ ": " ++ source

/-- The message of the store behind an error, if a store is behind it. -/
def source? : CoverError → Option String
  | storeFailed _ source => some source
  | _ => none

end CoverError

end CoverMosaic
