import CoverMosaic.Proofs.Cells
/-!
# Filling in two parts: `assemble` on a list that is cut in two

To fill a list of cells is to fill the front of it and then, with the queue that is left, the back.
What is left is the queue without its first `taken` candidates. A cell that passes over missing
artwork stops right behind the candidate that it shows, so the candidates without artwork that
follow stay in the queue until another cell wants one (`settle_rest_drop`). How many are gone is a
matter of where the candidates with artwork stand in the queue (`Takes`, `takes_iff`).

Main result `place_append`.
-/
namespace CoverMosaic

namespace MissingArt

variable {p : MissingArt} {size n k : Nat} {queue : List Candidate}

/-! ## How far the queue moves on -/

/-- How many candidates are gone from a queue after some cells, shown or passed over. -/
def taken (p : MissingArt) : List Candidate → Nat → Nat
  | [], _ => 0
  | _, 0 => 0
  | c :: queue, n + 1 =>
    if p.skip = true ∧ c.artwork = none then p.taken queue (n + 1) + 1 else p.taken queue n + 1

/-- How many candidates of a queue have artwork. -/
def artCount (queue : List Candidate) : Nat := queue.countP (·.artwork.isSome)

/-- How many candidates a number of cells takes off the queue. Where missing artwork is not passed
over, each cell takes one while there are any. Where it is, the last cell stops behind a candidate
with artwork, and the queue is used up if it has too few of these. -/
inductive Takes (p : MissingArt) (queue : List Candidate) : Nat → Nat → Prop where
  | each (n : Nat) (h : p.skip = false) : Takes p queue n (min n queue.length)
  | noCell (h : p.skip = true) : Takes p queue 0 0
  | behind {before after : List Candidate} {c : Candidate} (h : p.skip = true)
    (hsplit : queue = before ++ c :: after) (hart : c.artwork.isSome = true) :
    Takes p queue (artCount before + 1) (before.length + 1)
  | all {n : Nat} (h : p.skip = true) (hfew : artCount queue < n) : Takes p queue n queue.length

theorem taken_zero (p : MissingArt) (queue : List Candidate) : p.taken queue 0 = 0 := by
  cases queue <;> rfl

theorem taken_each (h : p.skip = false) (queue : List Candidate) (n : Nat) :
    p.taken queue n = min n queue.length := by
  induction queue generalizing n with
  | nil => simp [taken]
  | cons c queue ih =>
    cases n with
    | zero => simp [taken]
    | succ n => simp [taken, h, ih]

theorem taken_behind (h : p.skip = true) {c : Candidate} (hart : c.artwork.isSome = true)
    (before after : List Candidate) :
    p.taken (before ++ c :: after) (artCount before + 1) = before.length + 1 := by
  have hne : c.artwork ≠ none := Option.isSome_iff_ne_none.1 hart
  induction before with
  | nil => simp [taken, artCount, hne, taken_zero]
  | cons b before ih =>
    by_cases hb : b.artwork = none
    · simpa [taken, artCount, h, hb] using ih
    · have hsome : b.artwork.isSome = true := Option.isSome_iff_ne_none.2 hb
      simpa [taken, artCount, hb, hsome] using ih

theorem taken_all (h : p.skip = true) (hfew : artCount queue < n) :
    p.taken queue n = queue.length := by
  induction queue generalizing n with
  | nil => rfl
  | cons c queue ih =>
    obtain ⟨n, rfl⟩ := Nat.exists_eq_add_one_of_ne_zero (Nat.ne_zero_of_lt hfew)
    by_cases hc : c.artwork = none
    · have hrest : artCount queue < n + 1 := by simpa [artCount, hc] using hfew
      simp [taken, h, hc, ih hrest]
    · have hsome : c.artwork.isSome = true := Option.isSome_iff_ne_none.2 hc
      have hrest : artCount queue < n := by simpa [artCount, hsome] using hfew
      simp [taken, hc, ih hrest]

/-- The candidate with artwork that has so many of its kind before it. -/
theorem exists_art (h : n < artCount queue) :
    ∃ before c after, queue = before ++ c :: after ∧ c.artwork.isSome = true ∧
      artCount before = n := by
  induction queue generalizing n with
  | nil => simp [artCount] at h
  | cons c queue ih =>
    by_cases hc : c.artwork.isSome = true
    · cases n with
      | zero => exact ⟨[], c, queue, rfl, hc, rfl⟩
      | succ n =>
        have hrest : n < artCount queue := by simpa [artCount, hc] using h
        obtain ⟨before, d, after, rfl, hd, hcount⟩ := ih hrest
        exact ⟨c :: before, d, after, rfl, hd, by simpa [artCount, hc] using hcount⟩
    · have hrest : n < artCount queue := by simpa [artCount, hc] using h
      obtain ⟨before, d, after, rfl, hd, hcount⟩ := ih hrest
      exact ⟨c :: before, d, after, rfl, hd, by simpa [artCount, hc] using hcount⟩

theorem takes_iff : p.Takes queue n k ↔ k = p.taken queue n := by
  constructor
  · intro h
    cases h with
    | each n h => rw [taken_each h]
    | noCell h => rw [taken_zero]
    | behind h hsplit hart => rw [hsplit, taken_behind h hart]
    | all h hfew => rw [taken_all h hfew]
  · rintro rfl
    by_cases hp : p.skip = true
    · rcases Nat.lt_or_ge (artCount queue) n with hfew | henough
      · rw [taken_all hp hfew]
        exact .all hp hfew
      · cases n with
        | zero => rw [taken_zero]; exact .noCell hp
        | succ n =>
          obtain ⟨before, c, after, rfl, hart, rfl⟩ := exists_art henough
          rw [taken_behind hp hart]
          exact .behind hp rfl hart
    · have hp : p.skip = false := by simpa using hp
      rw [taken_each hp]
      exact .each n hp

/-! ## Cells in two parts -/

/-- What a cell and then some more take is taken by one more of them. -/
theorem settle_rest_drop (p : MissingArt) (size : Nat) (queue : List Candidate) (n : Nat) :
    (p.settle size queue).rest.drop (p.taken (p.settle size queue).rest n) =
      queue.drop (p.taken queue (n + 1)) := by
  induction queue with
  | nil => rfl
  | cons c queue ih =>
    by_cases h : p.outcome size c.artwork = .skip
    · simp [settle_skip h, taken, outcome_eq_skip_iff.1 h, ih]
    · have hne := mt outcome_eq_skip_iff.2 h
      simp [settle_take h, taken, hne]

theorem length_cells (p : MissingArt) (size : Nat) (queue : List Candidate) (n : Nat) :
    (p.cells size queue n).length = n := by
  induction n generalizing queue with
  | zero => rfl
  | succ n ih => rw [cells, List.length_cons, ih]

theorem cells_add (p : MissingArt) (size : Nat) (queue : List Candidate) (m n : Nat) :
    p.cells size queue (m + n) =
      p.cells size queue m ++ p.cells size (queue.drop (p.taken queue m)) n := by
  induction m generalizing queue with
  | zero => simp [cells, taken_zero]
  | succ m ih =>
    rw [Nat.succ_add, cells, cells, ih, settle_rest_drop, List.cons_append]

theorem fill_append (p : MissingArt) (size : Nat) (queue : List Candidate) (xs ys : List Box) :
    p.fill size queue (xs ++ ys) =
      p.fill size queue xs ++ p.fill size (queue.drop (p.taken queue xs.length)) ys := by
  have hlength : xs.length = (p.cells size queue xs.length).length := by rw [length_cells]
  simp only [fill_eq_images, List.length_append, cells_add, Settled.images,
    List.zip_append hlength, List.filterMap_append]

end MissingArt

namespace Grid

theorem place_append_taken (g : Grid) (p : MissingArt) (size : Nat) (queue : List Candidate)
    (front back : List String) :
    g.place p size queue (front ++ back) = do
      let images ← g.place p size queue front
      let more ← g.place p size (queue.drop (p.taken queue front.length)) back
      return images ++ more := by
  unfold place
  rw [List.mapM_append]
  cases hfront : front.mapM g.boxOfText with
  | error e => rfl
  | ok boxes =>
    have hlength : front.length = boxes.length := (mapM_eq_ok_iff.1 hfront).length_eq
    cases back.mapM g.boxOfText with
    | error e => rfl
    | ok more =>
      show Except.ok _ = Except.ok _
      rw [MissingArt.fill_append, hlength]

/-- **Filling in two parts.** A list of addresses is filled as its front is, and then its back with
the queue that the front leaves, and the first error of the two is that of the whole. What the front
takes off the queue is determined, and the cells of the back go on from there. At addresses of the
grid both parts are filled. -/
theorem place_append (g : Grid) (p : MissingArt) (size : Nat) (queue : List Candidate)
    (front back : List String) :
    ∃ k, (∀ k', p.Takes queue front.length k' ↔ k' = k) ∧
      (g.place p size queue (front ++ back) = do
        let images ← g.place p size queue front
        let more ← g.place p size (queue.drop k) back
        return images ++ more) ∧
      (∀ n, p.cells size queue (front.length + n) =
        p.cells size queue front.length ++ p.cells size (queue.drop k) n) ∧
      (1 ≤ g.imageSize → (∀ text ∈ front ++ back, g.Names text) →
        ∃ images more, g.place p size queue front = .ok images ∧
          g.place p size (queue.drop k) back = .ok more ∧
          g.place p size queue (front ++ back) = .ok (images ++ more)) := by
  have happend := g.place_append_taken p size queue front back
  refine ⟨_, fun _ => MissingArt.takes_iff, happend, MissingArt.cells_add p size queue _, ?_⟩
  intro hs hnames
  obtain ⟨hfront, hback⟩ := List.forall_mem_append.1 hnames
  obtain ⟨boxes, hboxes⟩ := exists_boxes hs hfront
  obtain ⟨boxes', hboxes'⟩ := exists_boxes hs hback
  refine ⟨_, _, place_of_boxes hboxes, place_of_boxes hboxes', ?_⟩
  rw [happend, place_of_boxes hboxes, place_of_boxes hboxes']
  rfl

/-- The front stops behind its only cover. The two candidates without artwork that follow are passed
over by the back, which runs out in its second cell. -/
theorem place_append_between :
    ∃ queue : List Candidate,
      queue.map (·.artwork.isSome) = [false, true, false, false, true] ∧
      MissingArt.Takes ⟨true, true⟩ queue 1 2 ∧
      1 ≤ (Grid.mk 2 500).imageSize ∧ (∀ text ∈ ["0"] ++ ["1", "2,3"], (Grid.mk 2 500).Names text) ∧
      ∃ images more, (Grid.mk 2 500).place ⟨true, true⟩ 500 queue ["0"] = .ok images ∧
        (Grid.mk 2 500).place ⟨true, true⟩ 500 (queue.drop 2) ["1", "2,3"] = .ok more ∧
        (Grid.mk 2 500).place ⟨true, true⟩ 500 queue (["0"] ++ ["1", "2,3"]) =
          .ok (images ++ more) ∧
        images.map (·.credit.map Credit.release) = [some "b"] ∧
        more.map (·.credit.map Credit.release) = [some "e", none] := by
  let queue : List Candidate :=
    [⟨⟨"a", "A", "v"⟩, none⟩, ⟨⟨"b", "B", "w"⟩, some ⟨7, "r"⟩⟩, ⟨⟨"c", "C", "x"⟩, none⟩,
      ⟨⟨"d", "D", "y"⟩, none⟩, ⟨⟨"e", "E", "z"⟩, some ⟨8, "s"⟩⟩]
  have htakes : MissingArt.Takes ⟨true, true⟩ queue 1 2 := MissingArt.takes_iff.2 rfl
  have hs : 1 ≤ (Grid.mk 2 500).imageSize := by decide
  have hnames : ∀ text ∈ ["0"] ++ ["1", "2,3"], (Grid.mk 2 500).Names text := by decide
  obtain ⟨k, htakes_iff, -, -, hplace⟩ :=
    (Grid.mk 2 500).place_append ⟨true, true⟩ 500 queue ["0"] ["1", "2,3"]
  obtain rfl := (htakes_iff 2).1 htakes
  obtain ⟨images, more, hfront, hback, hboth⟩ := hplace hs hnames
  have hfront' : (Grid.mk 2 500).place ⟨true, true⟩ 500 queue ["0"] = .ok _ := rfl
  have hback' : (Grid.mk 2 500).place ⟨true, true⟩ 500 (queue.drop 2) ["1", "2,3"] = .ok _ := rfl
  obtain rfl := Except.ok.inj (hfront'.symm.trans hfront)
  obtain rfl := Except.ok.inj (hback'.symm.trans hback)
  exact ⟨queue, rfl, htakes, hs, hnames, _, _, hfront, hback, hboth, by decide, by decide⟩

end Grid

end CoverMosaic
