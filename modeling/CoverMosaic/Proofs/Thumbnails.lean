import CoverMosaic.Placement
/-!
# What the address of a thumbnail tells: `resolve_url`

The address holds the release twice and the number of the image once, with nothing around them that
a release may not hold too: it can have hyphens and slashes, or end like an address. Read from its
end the address still tells what it is of. The two sizes are written with equally many digits, so
the ending has a fixed length (`length_ending`). The image number has no hyphen, so that it reaches
back to the last one (`append_cons_inj_of_not_mem`). What is left in front has the release on both
sides of a fixed text, so that its length gives that of the release (`doubled_inj`).

Main result `thumbnail?_identifies`.
-/
namespace CoverMosaic

/-! ## Texts that are put together -/

namespace Text

variable {α : Type} {xs ys us vs sep : List α} {x : α}

/-- A list is cut at the last place where an element stands. -/
theorem append_cons_inj_of_not_mem (hus : x ∉ us) (hvs : x ∉ vs)
    (h : xs ++ x :: us = ys ++ x :: vs) : xs = ys ∧ us = vs := by
  rcases List.append_eq_append_iff.1 h with ⟨as, hys, htail⟩ | ⟨as, hxs, htail⟩
  · cases as with
    | nil => simpa using And.intro hys.symm htail
    | cons a as =>
      obtain ⟨-, rfl⟩ := List.cons.inj htail
      simp at hus
  · cases as with
    | nil => simpa [eq_comm] using And.intro hxs htail
    | cons a as =>
      obtain ⟨-, rfl⟩ := List.cons.inj htail
      simp at hvs

/-- What stands on both sides of a fixed text can be told from the whole. -/
theorem doubled_inj (h : xs ++ sep ++ xs = ys ++ sep ++ ys) : xs = ys := by
  have hlength : xs.length = ys.length := by
    have := congrArg List.length h
    simp only [List.length_append] at this
    omega
  exact (List.append_inj' h hlength).2

end Text

/-! ## Addresses of thumbnails -/

namespace Artwork

open Text

variable {a b : Artwork} {p q size : Nat} {url : String}

/-- What stands in front of the last hyphen of an address. -/
def beginning (a : Artwork) : String :=
  Limits.archiveRoot ++ "/mbid-" ++ (a.release ++ "/mbid-" ++ a.release)

/-- What follows the number of the image. -/
def ending (size : Nat) : String := "_thumb" ++ Decimal.text size ++ ".jpg"

theorem thumbnail?_eq_some_iff : a.thumbnail? size = some url ↔ size ∈ Limits.thumbnailSizes ∧
    url = a.beginning ++ ("-" ++ Decimal.text a.image.toNat) ++ ending size := by
  unfold thumbnail?
  by_cases hsize : size ∈ Limits.thumbnailSizes
  · rw [if_pos hsize, Option.some.injEq]
    simp only [hsize, true_and, beginning, ending, String.append_assoc]
    exact eq_comm
  · simp [hsize]

/-- The three parts of an address one after another. -/
theorem toList_of_thumbnail? (h : a.thumbnail? size = some url) :
    url.toList =
      (a.beginning.toList ++ '-' :: Decimal.write a.image.toNat) ++ (ending size).toList := by
  obtain ⟨_, rfl⟩ := thumbnail?_eq_some_iff.1 h
  simp only [String.toList_append, Decimal.text, String.toList_ofList]
  rfl

theorem starts_at_root (h : a.thumbnail? size = some url) :
    Limits.archiveRoot.toList <+: url.toList := by
  rw [toList_of_thumbnail? h, beginning]
  simp only [String.append_assoc, String.toList_append, List.append_assoc]
  exact List.prefix_append _ _

theorem length_ending (h : size ∈ Limits.thumbnailSizes) : (ending size).toList.length = 13 := by
  have hall : ∀ s ∈ Limits.thumbnailSizes, (ending s).toList.length = 13 := by decide
  exact hall size h

theorem ending_injective (h : (ending p).toList = (ending q).toList) : p = q := by
  simp only [ending, Decimal.text, String.toList_append, String.toList_ofList] at h
  exact Decimal.write_injective (List.append_cancel_left (List.append_cancel_right h))

theorem beginning_injective (h : a.beginning.toList = b.beginning.toList) :
    a.release = b.release := by
  simp only [beginning, String.toList_append] at h
  exact String.toList_inj.1 (doubled_inj (List.append_cancel_left h))

theorem eq_of_thumbnail? (ha : a.thumbnail? p = some url) (hb : b.thumbnail? q = some url) :
    a.image = b.image ∧ a.release = b.release ∧ p = q := by
  have hlength : (ending p).toList.length = (ending q).toList.length := by
    rw [length_ending (thumbnail?_eq_some_iff.1 ha).1, length_ending (thumbnail?_eq_some_iff.1 hb).1]
  have hsame := (toList_of_thumbnail? ha).symm.trans (toList_of_thumbnail? hb)
  obtain ⟨hfront, hending⟩ := List.append_inj' hsame hlength
  have hnumber (n : Nat) : '-' ∉ Decimal.write n := Decimal.not_mem_write (by decide)
  obtain ⟨hbeginning, himage⟩ :=
    append_cons_inj_of_not_mem (hnumber a.image.toNat) (hnumber b.image.toNat) hfront
  exact ⟨UInt64.toNat_inj.1 (Decimal.write_injective himage), beginning_injective hbeginning,
    ending_injective hending⟩

/-- **An address tells what it is of.** There is an address for just the two sizes that the archive
keeps, and no other artwork and no other size has the same one, whatever the texts of the releases. -/
theorem thumbnail?_identifies (a : Artwork) (p : Nat) :
    ((a.thumbnail? p).isSome ↔ p = 250 ∨ p = 500) ∧
    ∀ url, a.thumbnail? p = some url → ∀ (b : Artwork) (q : Nat),
      b.thumbnail? q = some url ↔ a.image = b.image ∧ a.release = b.release ∧ p = q := by
  constructor
  · rw [thumbnail?_isSome_iff, Limits.mem_thumbnailSizes]
  · intro url ha b q
    constructor
    · intro hb
      exact eq_of_thumbnail? ha hb
    · obtain ⟨image, release⟩ := b
      rintro ⟨rfl, rfl, rfl⟩
      exact ha

/-- A hyphen that could belong to the release, and a release that ends like an address. -/
theorem thumbnail?_identifies_hyphen :
    (Artwork.mk 12 "r").thumbnail? 250 =
      some "https://archive.org/download/mbid-r/mbid-r-12_thumb250.jpg" ∧
    (Artwork.mk 2 "r-1").thumbnail? 250 ≠
      some "https://archive.org/download/mbid-r/mbid-r-12_thumb250.jpg" ∧
    (Artwork.mk 12 "r/mbid-r-12_thumb250.jpg").thumbnail? 250 ≠
      some "https://archive.org/download/mbid-r/mbid-r-12_thumb250.jpg" := by
  have haddress : (Artwork.mk 12 "r").thumbnail? 250 =
      some "https://archive.org/download/mbid-r/mbid-r-12_thumb250.jpg" := by decide
  have htells := (thumbnail?_identifies ⟨12, "r"⟩ 250).2 _ haddress
  refine ⟨haddress, ?_, ?_⟩
  · intro h
    exact absurd ((htells _ _).1 h).2.1 (by decide)
  · intro h
    exact absurd ((htells _ _).1 h).2.1 (by decide)

end Artwork

end CoverMosaic
