import CoverMosaic.Proofs.Queue
import Mathlib.Order.Bounds.Basic
/-!
# The smallest box: `union` and `bounding_box`

Merging boxes one after another is not symmetric: one corner of the box that grows counts for each
of its corners, and both corners of the box that is added. Yet a box takes in the outcome if and
only if it takes in all of them (`takesIn_foldl_merge_iff`), as long as the first one has its
corners in order. So the outcome is the smallest box around all corners, and the order of the
others does not matter. Main result `foldl_merge_smallest`.

The box of an address is worked out by a merge over its tiles in the order in which they are
written. It is the smallest box that takes in the boxes of all of them: each of its four sides is
the side of the box of a tile (`encloses_spanBox`). Only one box can be the smallest
(`Encloses.unique`), and which one it is depends on the set of tiles alone (`Encloses.congr`), so
that neither order nor repetition nor spelling counts. Main result `boxOfText_encloses`.
-/
namespace CoverMosaic

/-! ## Boxes inside boxes -/

namespace Box

/-- Every pixel that the one covers is covered by the other. -/
def Within (b c : Box) : Prop := ∀ p, b.Covers p → c.Covers p

variable {b c : Box}

theorem Upright.covers_near (h : b.Upright) : b.Covers b.near := by
  obtain ⟨hx, hy⟩ := h
  simp only [Covers]
  omega

theorem Upright.covers_far (h : b.Upright) : b.Covers b.far := by
  obtain ⟨hx, hy⟩ := h
  simp only [Covers]
  omega

theorem within_iff (hb : b.Upright) :
    b.Within c ↔ (c.near.x ≤ b.near.x ∧ b.far.x ≤ c.far.x) ∧
      (c.near.y ≤ b.near.y ∧ b.far.y ≤ c.far.y) := by
  constructor
  · intro h
    obtain ⟨⟨hleft, _⟩, htop, _⟩ := h _ hb.covers_near
    obtain ⟨⟨_, hright⟩, _, hbottom⟩ := h _ hb.covers_far
    exact ⟨⟨hleft, hright⟩, htop, hbottom⟩
  · intro h p hp
    simp only [Covers] at hp ⊢
    omega

theorem Within.antisymm (hb : b.Upright) (hc : c.Upright) (h : b.Within c) (h' : c.Within b) :
    b = c := by
  obtain ⟨⟨x, y⟩, ⟨x', y'⟩⟩ := b
  obtain ⟨⟨u, v⟩, ⟨u', v'⟩⟩ := c
  have h := (within_iff hb).1 h
  have h' := (within_iff hc).1 h'
  simp only at h h'
  simp only [mk.injEq, Pixel.mk.injEq]
  omega

/-! ## Merged boxes -/

/-- Both corners of the other box are covered, in whichever order they stand. -/
def TakesIn (b c : Box) : Prop := b.Covers c.near ∧ b.Covers c.far

instance (b c : Box) : Decidable (b.TakesIn c) := inferInstanceAs (Decidable (_ ∧ _))

/-- The box takes in all of the boxes, and no other box that does so is smaller. -/
structure SmallestAround (bs : List Box) (b : Box) : Prop where
  upright : b.Upright
  takesIn : ∀ c ∈ bs, b.TakesIn c
  least : ∀ r : Box, (∀ c ∈ bs, r.TakesIn c) → b.Within r

theorem takesIn_iff_within (hc : c.Upright) : b.TakesIn c ↔ c.Within b := by
  constructor
  · rintro ⟨hnear, hfar⟩
    simp only [Covers] at hnear hfar
    rw [within_iff hc]
    omega
  · intro h
    exact ⟨h _ hc.covers_near, h _ hc.covers_far⟩

/-- To take in two merged boxes is to take in both. -/
theorem takesIn_merge_iff (hb : b.Upright) (c r : Box) :
    r.TakesIn (b.merge c) ↔ r.TakesIn b ∧ r.TakesIn c := by
  have hup := merge_upright hb c
  rw [takesIn_iff_within hup, within_iff hup, takesIn_iff_within hb, within_iff hb]
  simp only [merge, Nat.le_min, Nat.max_le, TakesIn, Covers]
  omega

theorem foldl_merge_upright (hb : b.Upright) (cs : List Box) : (cs.foldl merge b).Upright := by
  induction cs generalizing b with
  | nil => exact hb
  | cons c cs ih => exact ih (merge_upright hb c)

/-- To take in any number of merged boxes is to take in all of them. -/
theorem takesIn_foldl_merge_iff (hb : b.Upright) (cs : List Box) (r : Box) :
    r.TakesIn (cs.foldl merge b) ↔ ∀ c ∈ b :: cs, r.TakesIn c := by
  induction cs generalizing b with
  | nil => simp
  | cons c cs ih =>
    rw [List.foldl_cons, ih (merge_upright hb c), List.forall_mem_cons, takesIn_merge_iff hb]
    simp only [List.forall_mem_cons, and_assoc]

theorem smallestAround_foldl_merge (hb : b.Upright) (cs : List Box) :
    SmallestAround (b :: cs) (cs.foldl merge b) := by
  have hup := foldl_merge_upright hb cs
  refine ⟨hup, ?_, fun r hr => ?_⟩
  · exact (takesIn_foldl_merge_iff hb cs _).1 ⟨hup.covers_near, hup.covers_far⟩
  · exact (takesIn_iff_within hup).1 ((takesIn_foldl_merge_iff hb cs r).2 hr)

theorem SmallestAround.unique {bs : List Box} (hb : SmallestAround bs b)
    (hc : SmallestAround bs c) : b = c :=
  Within.antisymm hb.upright hc.upright (hb.least c hc.takesIn) (hc.least b hb.takesIn)

theorem SmallestAround.congr {bs bs' : List Box} (h : SmallestAround bs b)
    (hmem : ∀ c, c ∈ bs' ↔ c ∈ bs) : SmallestAround bs' b := by
  refine ⟨h.upright, fun c hc => h.takesIn c ((hmem c).1 hc), fun r hr => h.least r ?_⟩
  intro c hc
  exact hr c ((hmem c).2 hc)

/-- **The merge of boxes is the smallest box around their corners.** Only the first of them need
have its corners in order. Neither the order of the others nor repetition makes a difference. -/
theorem foldl_merge_smallest {a : Box} (ha : a.Upright) (bs : List Box) :
    (∀ b, SmallestAround (a :: bs) b ↔ b = bs.foldl merge a) ∧
    ∀ bs' : List Box, (∀ b, b ∈ bs' ↔ b ∈ bs) → bs'.foldl merge a = bs.foldl merge a := by
  have hsmallest := smallestAround_foldl_merge ha bs
  refine ⟨fun b => ⟨fun h => h.unique hsmallest, ?_⟩, fun bs' hmem => ?_⟩
  · rintro rfl
    exact hsmallest
  · have hmem' : ∀ b, b ∈ a :: bs' ↔ b ∈ a :: bs := by simp [hmem]
    exact (smallestAround_foldl_merge ha bs').unique (hsmallest.congr hmem')

/-- Boxes inverted from left to right, from top to bottom, and in both ways. -/
theorem foldl_merge_smallest_inverted :
    (Box.mk ⟨4, 4⟩ ⟨5, 5⟩).Upright ∧
    (∀ b ∈ [Box.mk ⟨9, 6⟩ ⟨7, 8⟩, ⟨⟨1, 3⟩, ⟨2, 0⟩⟩, ⟨⟨3, 9⟩, ⟨2, 7⟩⟩], ¬ b.Upright) ∧
    SmallestAround [⟨⟨4, 4⟩, ⟨5, 5⟩⟩, ⟨⟨9, 6⟩, ⟨7, 8⟩⟩, ⟨⟨1, 3⟩, ⟨2, 0⟩⟩, ⟨⟨3, 9⟩, ⟨2, 7⟩⟩]
      ⟨⟨1, 0⟩, ⟨9, 9⟩⟩ ∧
    [⟨⟨3, 9⟩, ⟨2, 7⟩⟩, ⟨⟨9, 6⟩, ⟨7, 8⟩⟩, ⟨⟨3, 9⟩, ⟨2, 7⟩⟩, ⟨⟨1, 3⟩, ⟨2, 0⟩⟩].foldl merge
      ⟨⟨4, 4⟩, ⟨5, 5⟩⟩ = ⟨⟨1, 0⟩, ⟨9, 9⟩⟩ := by
  have hfirst : (Box.mk ⟨4, 4⟩ ⟨5, 5⟩).Upright := by decide
  obtain ⟨hsmallest, hsame⟩ := foldl_merge_smallest hfirst
    [⟨⟨9, 6⟩, ⟨7, 8⟩⟩, ⟨⟨1, 3⟩, ⟨2, 0⟩⟩, ⟨⟨3, 9⟩, ⟨2, 7⟩⟩]
  refine ⟨hfirst, by decide, (hsmallest _).2 rfl, ?_⟩
  refine hsame _ fun b => ?_
  simp only [List.mem_cons, List.not_mem_nil, or_false]
  tauto

/-- An inverted first box is not put in order: its own corners are outside. -/
example : (Box.mk ⟨5, 5⟩ ⟨3, 3⟩).merge ⟨⟨4, 4⟩, ⟨4, 4⟩⟩ = ⟨⟨4, 4⟩, ⟨4, 4⟩⟩ := rfl

end Box

/-! ## The smallest box of an address -/

namespace Address

/-- The rows of the tiles. -/
def rows (d : Nat) (a : Address) : Set Nat := {row | ∃ t ∈ a.tiles, t.toNat / d = row}

/-- The columns of the tiles. -/
def cols (d : Nat) (a : Address) : Set Nat := {col | ∃ t ∈ a.tiles, t.toNat % d = col}

/-- The bounds of the span are the least and the greatest row and column. -/
theorem span_extremes (d : Nat) (a : Address) :
    IsLeast (a.rows d) (a.span d).top ∧ IsGreatest (a.rows d) (a.span d).bottom ∧
      IsLeast (a.cols d) (a.span d).left ∧ IsGreatest (a.cols d) (a.span d).right := by
  obtain ⟨holds, htop, hbottom, hleft, hright⟩ := a.span_fits d
  have hrow {n : Nat} (h : n ∈ (a.numbers.map (Place.ofNumber d)).map Place.row) :
      n ∈ a.rows d := by
    simpa [rows, numbers, Place.ofNumber] using h
  have hcol {n : Nat} (h : n ∈ (a.numbers.map (Place.ofNumber d)).map Place.col) :
      n ∈ a.cols d := by
    simpa [cols, numbers, Place.ofNumber] using h
  have hheld : ∀ t ∈ a.tiles, (a.span d).Holds (Place.ofNumber d t.toNat) := by
    intro t ht
    exact holds _ (List.mem_map_of_mem (List.mem_map_of_mem ht))
  refine ⟨⟨hrow htop, ?_⟩, ⟨hrow hbottom, ?_⟩, ⟨hcol hleft, ?_⟩, ⟨hcol hright, ?_⟩⟩
  · rintro _ ⟨t, ht, rfl⟩
    exact (hheld t ht).1.1
  · rintro _ ⟨t, ht, rfl⟩
    exact (hheld t ht).1.2
  · rintro _ ⟨t, ht, rfl⟩
    exact (hheld t ht).2.1
  · rintro _ ⟨t, ht, rfl⟩
    exact (hheld t ht).2.2

end Address

namespace Grid

/-- The box takes in the box of every tile, and no other box that does so is smaller. -/
structure Encloses (g : Grid) (a : Address) (b : Box) : Prop where
  upright : b.Upright
  holds : ∀ t ∈ a.tiles, ∃ c, g.tileBox? t = some c ∧ c.Within b
  least : ∀ r : Box, (∀ t ∈ a.tiles, ∀ c, g.tileBox? t = some c → c.Within r) → b.Within r

variable {g : Grid} {a a' : Address} {b b' : Box}

theorem Encloses.within (h : g.Encloses a b) (h' : g.Encloses a b') : b.Within b' := by
  apply h.least
  intro t ht c hc
  obtain ⟨c', hc', hwithin⟩ := h'.holds t ht
  obtain rfl := Option.some.inj (hc.symm.trans hc')
  exact hwithin

theorem Encloses.unique (h : g.Encloses a b) (h' : g.Encloses a b') : b = b' :=
  Box.Within.antisymm h.upright h'.upright (h.within h') (h'.within h)

theorem Encloses.congr (h : g.Encloses a b) (ht : ∀ t, t ∈ a'.tiles ↔ t ∈ a.tiles) :
    g.Encloses a' b := by
  refine ⟨h.upright, fun t ht' => h.holds t ((ht t).1 ht'), fun r hr => h.least r ?_⟩
  intro t ht'
  exact hr t ((ht t).2 ht')

theorem placeBox_within_iff (hs : 0 < g.imageSize) {p : Place} (hp : p.In g.dimension) :
    (g.placeBox p).Within b ↔
      (b.near.x ≤ p.col * g.tileSize ∧ g.edge p.col ≤ b.far.x) ∧
        (b.near.y ≤ p.row * g.tileSize ∧ g.edge p.row ≤ b.far.y) :=
  Box.within_iff ⟨start_le_edge hs hp.2, start_le_edge hs hp.1⟩

theorem placeBox_within_spanBox (hs : 0 < g.imageSize) {s : Span} {p : Place} (hp : s.Holds p)
    (hbottom : s.bottom < g.dimension) (hright : s.right < g.dimension) :
    (g.placeBox p).Within (g.spanBox s) := by
  obtain ⟨⟨htop, hrow⟩, hleft, hcol⟩ := hp
  rw [placeBox_within_iff hs ⟨by omega, by omega⟩]
  refine ⟨⟨?_, edge_le_edge hs hcol hright⟩, ?_, edge_le_edge hs hrow hbottom⟩
  · exact Nat.mul_le_mul_right _ hleft
  · exact Nat.mul_le_mul_right _ htop

theorem encloses_spanBox (hs : 0 < g.imageSize) (hhas : g.Has a) :
    g.Encloses a (g.spanBox (a.span g.dimension)) := by
  have hfits := a.span_fits g.dimension
  have hw := a.span_in hhas
  have hup := spanBox_upright hs hw
  have hlt : ∀ t ∈ a.tiles, t.toNat < g.tileCount := fun t ht => hhas _ (List.mem_map_of_mem ht)
  refine ⟨hup, fun t ht => ?_, fun r hr => ?_⟩
  · have hheld := hfits.holds _ (List.mem_map_of_mem (List.mem_map_of_mem ht))
    exact ⟨_, tileBox?_eq_some_iff.2 ⟨hlt t ht, rfl⟩,
      placeBox_within_spanBox hs hheld hw.1.2 hw.2.2⟩
  · have hsides (t : Tile) (ht : t ∈ a.tiles) :=
      (placeBox_within_iff hs (Place.ofNumber_in (hlt t ht))).1
        (hr t ht _ (tileBox?_eq_some_iff.2 ⟨hlt t ht, rfl⟩))
    -- each side of the box is that of a tile, which `r` does not cut off
    obtain ⟨⟨⟨t, ht, htop⟩, _⟩, ⟨⟨u, hu, hbottom⟩, _⟩, ⟨⟨v, hv, hleft⟩, _⟩,
      ⟨w, hw, hright⟩, _⟩ := a.span_extremes g.dimension
    rw [Box.within_iff hup]
    simp only [spanBox, ← htop, ← hbottom, ← hleft, ← hright]
    exact ⟨⟨(hsides v hv).1.1, (hsides w hw).1.2⟩, (hsides t ht).2.1, (hsides u hu).2.2⟩

/-! ## The box of a text -/

theorem edge_eq (hd : 1 ≤ g.dimension) (k : Nat) :
    g.edge k =
      if k = g.dimension - 1 then g.imageSize - 1 else (k + 1) * (g.imageSize / g.dimension) := by
  have hlast : k + 1 = g.dimension ↔ k = g.dimension - 1 := by omega
  simp only [edge, tileSize, hlast]

/-- **The smallest box.** A text that is no address of the grid is the error. The box of any other
text reaches from the first row and column of its tiles to the last ones, and as far as the last
pixel where these are the last of the grid. It is the smallest box around the boxes of the tiles,
and every text with the same set of tiles has it. -/
theorem boxOfText_encloses {d s : Nat} (hd : 1 ≤ d) (hs : 1 ≤ s) (text : String) :
    (∀ e, (Grid.mk d s).boxOfText text = .error e ↔
      ¬ (Grid.mk d s).Names text ∧ e = .badAddress text) ∧
    ∀ a, Address.read? text = some a → (Grid.mk d s).Has a →
      ∃ b, (Grid.mk d s).boxOfText text = .ok b ∧
        (∃ top bottom left right, IsLeast (a.rows d) top ∧ IsGreatest (a.rows d) bottom ∧
          IsLeast (a.cols d) left ∧ IsGreatest (a.cols d) right ∧
          b = ⟨⟨left * (s / d), top * (s / d)⟩,
            ⟨if right = d - 1 then s - 1 else (right + 1) * (s / d),
              if bottom = d - 1 then s - 1 else (bottom + 1) * (s / d)⟩⟩) ∧
        (Grid.mk d s).Encloses a b ∧
        ∀ text' a', Address.read? text' = some a' → (∀ t, t ∈ a'.tiles ↔ t ∈ a.tiles) →
          (Grid.mk d s).boxOfText text' = .ok b := by
  have hside : 0 < (Grid.mk d s).imageSize := hs
  refine ⟨fun e => boxOfText_eq_error_iff hside, fun a hread hhas => ?_⟩
  have hencloses := encloses_spanBox hside hhas
  refine ⟨_, (boxOfText_eq_ok_iff hside).2 ⟨a, hread, hhas, rfl⟩, ?_, hencloses, ?_⟩
  · obtain ⟨htop, hbottom, hleft, hright⟩ := a.span_extremes d
    refine ⟨_, _, _, _, htop, hbottom, hleft, hright, ?_⟩
    simp only [spanBox, edge_eq (g := ⟨d, s⟩) hd, tileSize]
  · intro text' a' hread' htiles
    have hhas' : (Grid.mk d s).Has a' := by
      intro n hn
      obtain ⟨t, ht, rfl⟩ := List.mem_map.1 hn
      exact hhas _ (List.mem_map_of_mem ((htiles t).1 ht))
    have hsame := (encloses_spanBox hside hhas').unique (hencloses.congr htiles)
    exact (boxOfText_eq_ok_iff hside).2 ⟨a', hread', hhas', hsame.symm⟩

/-- Tiles of two rows, one of them twice, in an image that three does not divide. -/
theorem boxOfText_encloses_repeated :
    (1 ≤ 3 ∧ 1 ≤ 500) ∧ Address.read? "4, +1,04" = some ⟨4, [1, 4]⟩ ∧
    (Grid.mk 3 500).boxOfText "4, +1,04" = .ok ⟨⟨166, 0⟩, ⟨332, 332⟩⟩ ∧
    (Grid.mk 3 500).Encloses ⟨4, [1, 4]⟩ ⟨⟨166, 0⟩, ⟨332, 332⟩⟩ ∧
    (Grid.mk 3 500).boxOfText "1,4" = .ok ⟨⟨166, 0⟩, ⟨332, 332⟩⟩ ∧
    (Grid.mk 3 500).boxOfText "1,9" = .error (.badAddress "1,9") := by
  have hread : Address.read? "4, +1,04" = some ⟨4, [1, 4]⟩ := by decide
  have hhas : (Grid.mk 3 500).Has ⟨4, [1, 4]⟩ := by decide
  have hbox : (Grid.mk 3 500).boxOfText "4, +1,04" = .ok ⟨⟨166, 0⟩, ⟨332, 332⟩⟩ := rfl
  obtain ⟨b, hb, -, hencloses, hsame⟩ :=
    (boxOfText_encloses (d := 3) (s := 500) (by decide) (by decide) "4, +1,04").2 _ hread hhas
  obtain rfl := Except.ok.inj (hbox.symm.trans hb)
  refine ⟨by decide, hread, hbox, hencloses, ?_, ?_⟩
  · refine hsame "1,4" ⟨1, [4]⟩ (by decide) fun t => ?_
    simp only [Address.tiles, List.mem_cons, List.not_mem_nil, or_false]
    tauto
  · exact ((boxOfText_encloses (by decide) (by decide) "1,9").1 _).2 ⟨by decide, rfl⟩

end Grid

end CoverMosaic
