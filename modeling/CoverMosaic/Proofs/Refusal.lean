import CoverMosaic.Proofs.Composition
import CoverMosaic.Stores.Memory
/-!
# Bad addresses: `assemble`, `generate_from_caa_ids` and `load_images`

A list of addresses is read before any candidate is looked at, and reading stops at the first text
that is no address of the grid (`place_refusesFirstBad`). Whether a cover is refused, and with which
error, therefore depends on the grid and the list alone: not on the queue, the size or what happens
where artwork is missing. A list of the caller's own goes unread up to this point, also where the
artwork is asked for first.

Main result `first_bad_address_refused`.
-/
namespace CoverMosaic

namespace Grid

/-- The text is no address of the grid, and those before it in the list are. -/
def FirstBad (g : Grid) (texts : List String) (text : String) : Prop :=
  ∃ before after, texts = before ++ text :: after ∧ (∀ t ∈ before, g.Names t) ∧ ¬ g.Names text

/-- There is an error exactly if a text of the list is no address of the grid, and it names the
first such text. -/
structure RefusesFirstBad {α : Type} (g : Grid) (texts : List String) (result : Except CoverError α) :
    Prop where
  refuses_iff : (∃ e, result = .error e) ↔ ∃ text ∈ texts, ¬ g.Names text
  error_iff : ∀ e, result = .error e ↔ ∃ text, g.FirstBad texts text ∧ e = .badAddress text

variable {g : Grid} {p : MissingArt} {size : Nat} {queue : List Candidate}
  {texts addresses : List String}

theorem exists_firstBad_iff : (∃ text, g.FirstBad texts text) ↔ ∃ text ∈ texts, ¬ g.Names text := by
  constructor
  · rintro ⟨text, before, after, rfl, _, hbad⟩
    exact ⟨text, by simp, hbad⟩
  · intro h
    induction texts with
    | nil => simp at h
    | cons t rest ih =>
      by_cases ht : g.Names t
      · have hrest : ∃ text ∈ rest, ¬ g.Names text := by simpa [ht] using h
        obtain ⟨text, before, after, rfl, hbefore, hbad⟩ := ih hrest
        exact ⟨text, t :: before, after, rfl, List.forall_mem_cons.2 ⟨ht, hbefore⟩, hbad⟩
      · exact ⟨t, [], rest, rfl, by simp, ht⟩

theorem RefusesFirstBad.of_error_iff {α : Type} {result : Except CoverError α}
    (h : ∀ e, result = .error e ↔ ∃ text, g.FirstBad texts text ∧ e = .badAddress text) :
    g.RefusesFirstBad texts result := by
  refine ⟨?_, h⟩
  rw [← exists_firstBad_iff]
  constructor
  · rintro ⟨e, he⟩
    obtain ⟨text, hfirst, -⟩ := (h e).1 he
    exact ⟨text, hfirst⟩
  · rintro ⟨text, hfirst⟩
    exact ⟨_, (h _).2 ⟨text, hfirst, rfl⟩⟩

theorem place_eq_error_iff_mapM {e : CoverError} :
    g.place p size queue addresses = .error e ↔ addresses.mapM g.boxOfText = .error e := by
  unfold place
  cases addresses.mapM g.boxOfText <;> simp [bind, Except.bind, pure, Except.pure]

theorem place_refusesFirstBad (hs : 0 < g.imageSize) (p : MissingArt) (size : Nat)
    (queue : List Candidate) (addresses : List String) :
    g.RefusesFirstBad addresses (g.place p size queue addresses) := by
  apply RefusesFirstBad.of_error_iff
  intro e
  simp only [place_eq_error_iff_mapM, mapM_eq_error_iff, ← names_iff_boxOfText hs,
    boxOfText_eq_error_iff hs]
  constructor
  · rintro ⟨before, text, after, hsplit, hbefore, hbad, rfl⟩
    exact ⟨text, ⟨before, after, hsplit, hbefore, hbad⟩, rfl⟩
  · rintro ⟨text, ⟨before, after, hsplit, hbefore, hbad⟩, rfl⟩
    exact ⟨before, text, after, hsplit, hbefore, hbad, rfl⟩

end Grid

namespace Composer

theorem compose_listed (c : Composer) (queue : List Candidate) (addresses : Design) (size : Nat) :
    c.compose queue (.listed addresses) size = c.grid.place c.missingArt size queue addresses := rfl

/-- **A bad address refuses the cover.** Whatever waits in the queue, a list of addresses is refused
exactly if one of them is no address of the grid, wherever it stands, and the error names the first
of these. So are the lists that a caller gives to a composer, with candidates or with releases
whose artwork is looked up. -/
theorem first_bad_address_refused (addresses : List String) (size : Nat) :
    (∀ (g : Grid) (p : MissingArt) (queue : List Candidate), 1 ≤ g.imageSize →
      g.RefusesFirstBad addresses (g.place p size queue addresses)) ∧
    ∀ c : Composer,
      (∀ queue, c.grid.RefusesFirstBad addresses (c.compose queue (.listed addresses) size)) ∧
      ∀ (s : Stores) (releases : List String) (known : String → Option ReleaseInfo),
        s.artwork (requested releases) = .ok known →
        c.grid.RefusesFirstBad addresses
          (c.composeReleases s releases (.listed addresses) size).result := by
  refine ⟨fun g p queue hs => Grid.place_refusesFirstBad hs p size queue addresses, fun c => ?_⟩
  have hcompose (queue : List Candidate) :
      c.grid.RefusesFirstBad addresses (c.compose queue (.listed addresses) size) := by
    rw [compose_listed]
    exact Grid.place_refusesFirstBad c.imageSize_pos c.missingArt size queue addresses
  refine ⟨hcompose, fun s releases known hknown => ?_⟩
  rw [composeReleases_result hknown]
  exact hcompose (candidates known releases)

/-- The second address leaves the grid and the third is malformed. No candidate reaches either of
them, and the size is none that the archive keeps. -/
theorem first_bad_address_refused_unreached :
    1 ≤ (Grid.mk 2 500).imageSize ∧
    (Grid.mk 2 500).place ⟨true, false⟩ 7 [] ["0,1", " 4", "x"] = .error (.badAddress " 4") ∧
    ∃ (c : Composer) (s : Stores) (known : String → Option ReleaseInfo),
      c.grid = ⟨2, 500⟩ ∧ s.artwork (requested ["a", ""]) = .ok known ∧
      (c.composeReleases s ["a", ""] (.listed ["0,1", " 4", "x"]) 7).result =
        .error (.badAddress " 4") := by
  obtain ⟨hplace, hcompose⟩ := first_bad_address_refused ["0,1", " 4", "x"] 7
  have hfirst : (Grid.mk 2 500).FirstBad ["0,1", " 4", "x"] " 4" :=
    ⟨["0,1"], ["x"], rfl, by decide, by decide⟩
  have hs : 1 ≤ (Grid.mk 2 500).imageSize := by decide
  let c : Composer := ⟨⟨2, 500, "white", true, false⟩, .white, by decide⟩
  let m : Memory := {}
  refine ⟨hs, ?_, c, m.stores, _, rfl, rfl, ?_⟩
  · exact ((hplace ⟨2, 500⟩ ⟨true, false⟩ [] hs).error_iff _).2 ⟨_, hfirst, rfl⟩
  · exact (((hcompose c).2 m.stores ["a", ""] _ rfl).error_iff _).2 ⟨_, hfirst, rfl⟩

end Composer

end CoverMosaic
