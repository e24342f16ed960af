import CoverMosaic.Words
import CoverMosaic.Proofs.Words
/-!
# Designs are checked on words: `verify_partition`

Worked out on words, the check of a design for a grid of at most 65535 tiles on a side meets no
fault and comes to the same verdict. Two invariants carry it through the tiles of an address and
from one address to the next: the bits are set for the tiles that are claimed (`TileBits.Marks`),
and the running bounds stand for the span of the tiles so far.

The bounds start at the largest word and at zero. They are the bounds of the first tile as soon as
that is taken up (`WordSpan.seed_insert`), and an address has a first tile. So the area is that of a
span inside the grid, which is no larger than the grid.

Main result `check_faultless`.
-/
namespace CoverMosaic

/-! ## Computations of a check -/

/-- The computation meets no fault, and its value stands in the relation to `b`. -/
def Yields {α β : Type} (R : α → β → Prop) (x : Except CheckFault α) (b : β) : Prop :=
  ∃ a, x = .ok a ∧ R a b

section
variable {α β γ δ : Type} {R : α → β → Prop} {R' : γ → δ → Prop}

theorem yields_pure {a : α} {b : β} (h : R a b) : Yields R (pure a) b := ⟨a, rfl, h⟩

theorem Yields.bind {x : Except CheckFault α} {b : β} (hx : Yields R x b)
    {f : α → Except CheckFault γ} {d : δ} (hf : ∀ a, R a b → Yields R' (f a) d) :
    Yields R' (x >>= f) d := by
  obtain ⟨a, rfl, ha⟩ := hx
  exact hf a ha

theorem Yields.rel {x : Except CheckFault α} {a : α} {b : β} (h : Yields R x b) (hx : x = .ok a) :
    R a b := by
  obtain ⟨a', hx', ha⟩ := h
  obtain rfl := Except.ok.inj (hx'.symm.trans hx)
  exact ha

theorem Gives.yields {stands : α → β} {x : Except Fault α} {b : β} (h : Gives stands x b) :
    Yields (fun a b => stands a = b) (onWords x) b := by
  obtain ⟨a, rfl, ha⟩ := h
  exact ⟨a, rfl, ha⟩

theorem optionRel_cases {x : Option α} {y : Option β} (h : Option.Rel R x y) :
    x = none ∧ y = none ∨ ∃ a b, x = some a ∧ y = some b ∧ R a b := by
  cases h with
  | none => exact .inl ⟨rfl, rfl⟩
  | some h => exact .inr ⟨_, _, rfl, rfl, h⟩

/-- Both end with the same error, or with values in the relation. -/
inductive Agrees (R : α → β → Prop) : Except CoverError α → Except CoverError β → Prop where
  | error (e : CoverError) : Agrees R (.error e) (.error e)
  | ok {a : α} {b : β} (h : R a b) : Agrees R (.ok a) (.ok b)

end

/-! ## Bits -/

namespace TileBits

/-- There is a bit for each tile of the grid, and it is set for those that are claimed. -/
structure Marks (g : Grid) (bits : TileBits) (claimed : List Tile) : Prop where
  size : bits.size = g.tileCount
  set_iff : ∀ t : Tile, bits[t.toNat]? = some true ↔ t ∈ claimed

variable {g : Grid} {bits : TileBits} {claimed : List Tile}

theorem marks_replicate (g : Grid) : Marks g (Array.replicate g.tileCount false) [] := by
  refine ⟨Array.size_replicate, fun t => ?_⟩
  simp [Array.getElem?_replicate]

theorem Marks.claim (h : Marks g bits claimed) {t : Tile} (ht : t.toNat < g.tileCount) :
    Yields (fun r ts => (r.1 = true ↔ t ∈ claimed) ∧ Marks g r.2 ts) (bits.claim t.toNat)
      (t :: claimed) := by
  have hsize : t.toNat < bits.size := by rwa [h.size]
  have hset : bits[t.toNat] = true ↔ t ∈ claimed := by
    rw [← h.set_iff, Array.getElem?_eq_getElem hsize, Option.some.injEq]
  unfold TileBits.claim
  rw [dif_pos hsize]
  refine ⟨_, rfl, hset, ?_, fun u => ?_⟩
  · rw [Array.size_set, h.size]
  · rw [Array.getElem?_set, List.mem_cons, ← h.set_iff]
    by_cases hu : t.toNat = u.toNat
    · simp [UInt32.toNat_inj.1 hu]
    · have hne : u ≠ t := fun heq => hu (congrArg UInt32.toNat heq.symm)
      simp [hu, hne]

theorem Marks.all_iff (h : Marks g bits claimed) (hword : g.tileCount ≤ UInt32.size) :
    bits.all id = true ↔ ∀ n < g.tileCount, n ∈ claimed.map UInt32.toNat := by
  rw [Array.all_eq_true]
  constructor
  · intro hall n hn
    have hset : bits[n]? = some true := by
      have hsize : n < bits.size := by rwa [h.size]
      rw [Array.getElem?_eq_getElem hsize, Option.some.injEq]
      exact hall n hsize
    have hn' : (UInt32.ofNatLT n (Nat.lt_of_lt_of_le hn hword)).toNat = n := UInt32.toNat_ofNatLT
    rw [← hn', h.set_iff] at hset
    exact List.mem_map.2 ⟨_, hset, hn'⟩
  · intro hall n hsize
    obtain ⟨t, ht, rfl⟩ := List.mem_map.1 (hall n (by rwa [← h.size]))
    have hset := (h.set_iff t).2 ht
    rw [Array.getElem?_eq_getElem hsize, Option.some.injEq] at hset
    exact hset

end TileBits

/-! ## Bounds -/

namespace WordSpan

theorem toSpan_insert (s : WordSpan) (p : WordPlace) :
    (s.insert p).toSpan = s.toSpan.insert p.toPlace := by
  simp only [toSpan, insert, Span.insert, WordPlace.toPlace, Word.toNat_min, Word.toNat_max]

/-- The first tile puts an end to the seeds. -/
theorem seed_insert (d : Nat) (t : Tile) :
    seed.toSpan.insert (Place.ofNumber d t.toNat) = Span.single (Place.ofNumber d t.toNat) := by
  have hlast : t.toNat ≤ 4294967295 := Nat.le_of_lt_succ t.toNat_lt
  have hrow := Nat.le_trans (Nat.div_le_self t.toNat d) hlast
  have hcol := Nat.le_trans (Nat.mod_le t.toNat d) hlast
  have hseed : seed.toSpan = ⟨4294967295, 0, 4294967295, 0⟩ := rfl
  simp only [hseed, Span.insert, Span.single, Place.ofNumber, Nat.min_eq_right hrow,
    Nat.min_eq_right hcol, Nat.zero_max]

theorem area_gives {d : Nat} (hd : d ≤ 65535) {s : WordSpan} (h : s.toSpan.In d) :
    Gives UInt32.toNat s.area s.toSpan.area := by
  have harea := h.area_le
  have hle : d * d ≤ 65535 * 65535 := Nat.mul_le_mul hd hd
  obtain ⟨⟨hrow, hbottom⟩, hcol, hright⟩ := h
  simp only [toSpan] at hrow hbottom hcol hright
  simp only [toSpan, Span.area] at harea ⊢
  have hone : (1 : Word).toNat = 1 := rfl
  refine (Word.sub_gives hrow).bind fun height hheight => ?_
  refine (Word.add_gives (by rw [hheight, hone, UInt32.size]; omega)).bind fun rows hrows => ?_
  refine (Word.sub_gives hcol).bind fun width hwidth => ?_
  refine (Word.add_gives (by rw [hwidth, hone, UInt32.size]; omega)).bind fun cols hcols => ?_
  rw [hheight, hone] at hrows
  rw [hwidth, hone] at hcols
  rw [← hrows, ← hcols] at harea ⊢
  exact Word.mul_gives (by rw [UInt32.size]; omega)

/-- Without a tile the bounds are still the seeds, and there would be a fault. -/
example : seed.area = .error .underflow := by decide

theorem ne_seed {d : Nat} (hd : d ≤ 65535) {s : WordSpan} (h : s.toSpan.In d) :
    s.top ≠ seed.top ∧ s.left ≠ seed.left := by
  obtain ⟨⟨hrow, hbottom⟩, hcol, hright⟩ := h
  have hseed : (4294967295 : Word).toNat = 4294967295 := rfl
  constructor
  · intro htop
    have htop := congrArg UInt32.toNat htop
    simp only [toSpan, seed, hseed] at hrow hbottom htop
    omega
  · intro hleft
    have hleft := congrArg UInt32.toNat hleft
    simp only [toSpan, seed, hseed] at hcol hright hleft
    omega

/-- The bounds are those of the tiles of an address and lie in the grid, so that the least ones are
no seeds any more. The area between them is worked out without a fault and is no larger than the
grid. -/
structure Measures (d : Nat) (a : Address) (s : WordSpan) : Prop where
  span : s.toSpan = a.span d
  inside : s.toSpan.In d
  unseeded : s.top ≠ seed.top ∧ s.left ≠ seed.left
  area : Gives UInt32.toNat s.area s.toSpan.area
  area_le : s.toSpan.area ≤ d * d

end WordSpan

/-! ## Addresses -/

/-- The span with the places of more tiles. -/
def Span.insertTiles (d : Nat) (s : Span) (ts : List Tile) : Span :=
  ts.foldl (fun s t => s.insert (Place.ofNumber d t.toNat)) s

theorem Address.span_eq_insertTiles (d : Nat) (a : Address) :
    a.span d = WordSpan.seed.toSpan.insertTiles d a.tiles := by
  rw [tiles, Span.insertTiles, List.foldl_cons, WordSpan.seed_insert, span, List.foldl_map]

theorem has_of_claim {g : Grid} {a : Address} {claimed claimed' : List Tile}
    (h : claim? g claimed a.tiles = some claimed') : g.Has a :=
  List.forall_mem_map.2 fun t ht => ((claim?_eq_some_iff.1 h).1 t ht).1

/-- The bits are those of the tiles that are claimed, and the bounds stand for a span. -/
structure WordClaim.Stands (g : Grid) (s : Span) (c : WordClaim) (claimed : List Tile) : Prop where
  marks : c.bits.Marks g claimed
  span : c.span.toSpan = s

namespace WordGrid

variable {w : WordGrid} {g : Grid}

/-- **One tile.** -/
theorem claimTile_yields (hw : w.Counts g) {s : Span} {c : WordClaim} {claimed : List Tile}
    (hc : c.Stands g s claimed) (t : Tile) :
    Yields (Option.Rel (WordClaim.Stands g (s.insert (Place.ofNumber g.dimension t.toNat))))
      (w.claimTile? c t)
      (if t.toNat < g.tileCount ∧ t ∉ claimed then some (t :: claimed) else none) := by
  obtain ⟨hmarks, rfl⟩ := hc
  refine (locate_gives hw t).yields.bind fun found hfound => ?_
  cases found with
  | none =>
    have ht : ¬ t.toNat < g.tileCount := by
      intro ht
      simp [Grid.locate?, ht] at hfound
    rw [if_neg fun h => ht h.1]
    exact yields_pure .none
  | some p =>
    obtain ⟨ht, hplace⟩ := Grid.locate?_eq_some_iff.1 hfound.symm
    refine (hmarks.claim ht).bind fun before hbefore => ?_
    obtain ⟨old, bits⟩ := before
    obtain ⟨hold, hmarks'⟩ := hbefore
    cases old with
    | true =>
      rw [if_neg fun h => h.2 (hold.1 rfl)]
      exact yields_pure .none
    | false =>
      have hfree : t ∉ claimed := fun hmem => Bool.false_ne_true (hold.2 hmem)
      rw [if_pos ⟨ht, hfree⟩]
      refine yields_pure (.some ⟨hmarks', ?_⟩)
      rw [WordSpan.toSpan_insert, hplace]
      rfl

/-- **All tiles of an address**, or the first of them up to any one. -/
theorem claimTiles_yields (hw : w.Counts g) : ∀ (ts : List Tile) {s : Span} {c : WordClaim}
    {claimed : List Tile}, c.Stands g s claimed →
    Yields (Option.Rel (WordClaim.Stands g (s.insertTiles g.dimension ts))) (w.claimTiles? c ts)
      (claim? g claimed ts)
  | [], _, _, _, hc => yields_pure (.some hc)
  | t :: ts, s, c, claimed, hc => by
    refine (claimTile_yields hw hc t).bind fun found hfound => ?_
    rw [claim?]
    by_cases ht : t.toNat < g.tileCount ∧ t ∉ claimed
    · rw [if_pos ht] at hfound ⊢
      cases hfound with
      | some hc' => exact claimTiles_yields hw ts hc'
    · rw [if_neg ht] at hfound ⊢
      cases hfound
      exact yields_pure .none

/-- Before the first tile of an address the bounds are the seeds. -/
theorem claimTiles_seed_yields (hw : w.Counts g) {bits : TileBits} {claimed : List Tile}
    (hmarks : bits.Marks g claimed) (ts : List Tile) :
    Yields (Option.Rel (WordClaim.Stands g (WordSpan.seed.toSpan.insertTiles g.dimension ts)))
      (w.claimTiles? ⟨bits, .seed⟩ ts) (claim? g claimed ts) :=
  claimTiles_yields hw ts ⟨hmarks, rfl⟩

theorem measures_of_stands (hw : w.Counts g) {a : Address} {c : WordClaim}
    {claimed claimed' : List Tile} (hclaim : claim? g claimed a.tiles = some claimed')
    (hc : c.Stands g (WordSpan.seed.toSpan.insertTiles g.dimension a.tiles) claimed') :
    c.span.Measures g.dimension a := by
  have hspan := hc.span
  rw [← Address.span_eq_insertTiles] at hspan
  have hin : c.span.toSpan.In g.dimension := hspan ▸ a.span_in (has_of_claim hclaim)
  exact ⟨hspan, hin, WordSpan.ne_seed hw.few_tiles hin, WordSpan.area_gives hw.few_tiles hin,
    hin.area_le⟩

theorem claimAddress_yields (hw : w.Counts g) {bits : TileBits} {claimed : List Tile}
    (hmarks : bits.Marks g claimed) (a : Address) :
    Yields (Option.Rel (TileBits.Marks g)) (w.claimAddress? bits a)
      (CoverMosaic.claimAddress? g claimed a) := by
  refine (claimTiles_seed_yields hw hmarks a.tiles).bind fun found hfound => ?_
  rw [CoverMosaic.claimAddress?]
  rcases optionRel_cases hfound with ⟨rfl, hclaim⟩ | ⟨c, claimed', rfl, hclaim, hc⟩
  · rw [hclaim]
    exact yields_pure .none
  · have hmeasures := measures_of_stands hw hclaim hc
    have hspan := Address.span?_eq_some_iff.2 ⟨has_of_claim hclaim, hmeasures.span⟩
    refine hmeasures.area.yields.bind fun area harea => ?_
    rw [hclaim]
    simp only [Option.bind_eq_bind, Option.bind_some, hspan, ← harea]
    by_cases hlen : area.toNat = a.tiles.length
    · rw [if_pos hlen, if_pos hlen]
      exact yields_pure (.some hc.marks)
    · rw [if_neg hlen, if_neg hlen]
      exact yields_pure .none

/-! ## Designs -/

/-- After a run over a whole design every bit is set if and only if as many tiles are claimed as the
grid has. -/
theorem all_claimed_iff {d : Nat} (hd : d ≤ 65535) {design : Design} {claimed : List Tile}
    {bits : TileBits} (hrun : CoverMosaic.claimAll ⟨d, d⟩ [] design = .ok claimed)
    (hmarks : bits.Marks ⟨d, d⟩ claimed) :
    bits.all id = true ↔ claimed.length = d * d := by
  have hword : (Grid.mk d d).tileCount ≤ UInt32.size :=
    Nat.le_trans (Nat.mul_le_mul hd hd) (by decide)
  have hspec := Design.claimAll_spec (s := d) design [] (Design.sound_nil d)
  rw [show (Design.tiles []).reverse = [] from rfl, hrun] at hspec
  obtain ⟨hsound, rfl⟩ : Design.Sound d design ∧ claimed = design.tiles.reverse := hspec
  have huncovered := Design.length_ne_iff_uncovered hsound
  rw [Design.numbers_eq_map, List.length_map] at huncovered
  rw [hmarks.all_iff hword, List.map_reverse, List.length_reverse]
  simp only [List.mem_reverse, Grid.tileCount]
  constructor
  · intro hall
    by_contra hne
    obtain ⟨n, hn, hout⟩ := huncovered.1 hne
    exact hout (hall n hn)
  · intro hlength n hn
    by_contra hout
    exact huncovered.2 ⟨n, hn, hout⟩ hlength

theorem claimAll_yields (hw : w.Counts g) : ∀ (design : Design) {bits : TileBits}
    {claimed : List Tile}, bits.Marks g claimed →
    Yields (Agrees (TileBits.Marks g)) (w.claimAll bits design)
      (CoverMosaic.claimAll g claimed design)
  | [], _, _, hmarks => yields_pure (.ok hmarks)
  | text :: rest, bits, claimed, hmarks => by
    rw [WordGrid.claimAll, CoverMosaic.claimAll]
    cases Address.read? text with
    | none => exact yields_pure (.error _)
    | some a =>
      refine (claimAddress_yields hw hmarks a).bind fun found hfound => ?_
      rw [Option.bind_some]
      rcases optionRel_cases hfound with ⟨rfl, hclaim⟩ | ⟨bits', claimed', rfl, hclaim, hmarks'⟩
      · rw [hclaim]
        exact yields_pure (.error _)
      · rw [hclaim]
        exact claimAll_yields hw rest hmarks'

theorem unclaimed_yields (hw : w.Counts g) : Yields (TileBits.Marks g) w.unclaimed [] := by
  refine (tileCount_gives hw).yields.bind fun count hcount => ?_
  refine yields_pure ?_
  rw [hcount]
  exact TileBits.marks_replicate g

theorem check_yields {d : Nat} (hw : w.Counts ⟨d, d⟩) (design : Design) :
    Yields (· = ·) (w.check design) (Design.check d design) := by
  refine (unclaimed_yields hw).bind fun bits hmarks => ?_
  refine (claimAll_yields hw design hmarks).bind fun found hfound => ?_
  rw [Design.check_eq]
  cases hall : CoverMosaic.claimAll ⟨d, d⟩ [] design with
  | error e =>
    rw [hall] at hfound
    cases hfound
    exact yields_pure rfl
  | ok claimed =>
    rw [hall] at hfound
    cases hfound with
    | @ok bits _ hmarks' =>
      have hverdict := all_claimed_iff hw.few_tiles hall hmarks'
      by_cases hlen : claimed.length = d * d
      · simp only [hverdict.2 hlen, hlen, if_true]
        exact yields_pure rfl
      · simp only [mt hverdict.1 hlen, hlen, if_false]
        exact yields_pure rfl

/-! ## No fault -/

/-- The check of a design comes to a point within an address: the texts before it are claimed, and
of its own tiles those in `ts`, while those in `us` are still to come. -/
inductive Reaches (w : WordGrid) (design : Design) (a : Address) (ts us : List Tile)
    (c : WordClaim) : Prop where
  | within {before after : Design} {text : String} {bits bits' : TileBits}
    (hsplit : design = before ++ text :: after) (hunclaimed : w.unclaimed = .ok bits)
    (hbefore : w.claimAll bits before = .ok (.ok bits')) (hread : Address.read? text = some a)
    (htiles : a.tiles = ts ++ us) (hclaimed : w.claimTiles? ⟨bits', .seed⟩ ts = .ok (some c))

theorem Reaches.stands {design : Design} {a : Address} {ts us : List Tile} {c : WordClaim}
    (hw : w.Counts g) (h : w.Reaches design a ts us c) :
    ∃ claimed claimed', claim? g claimed ts = some claimed' ∧
      c.Stands g (WordSpan.seed.toSpan.insertTiles g.dimension ts) claimed' := by
  obtain ⟨-, hunclaimed, hbefore, -, -, hclaimed⟩ := h
  have hmarks := (unclaimed_yields hw).rel hunclaimed
  have hagrees := (claimAll_yields hw _ hmarks).rel hbefore
  generalize CoverMosaic.claimAll g [] _ = run at hagrees
  cases hagrees with
  | ok hmarks' =>
    have hfound := (claimTiles_seed_yields hw hmarks' ts).rel hclaimed
    rcases optionRel_cases hfound with ⟨hnone, -⟩ | ⟨_, claimed', hsome, hclaim, hc⟩
    · cases hnone
    · obtain rfl := Option.some.inj hsome
      exact ⟨_, claimed', hclaim, hc⟩

theorem Reaches.size {design : Design} {a : Address} {ts us : List Tile} {c : WordClaim}
    (hw : w.Counts g) (h : w.Reaches design a ts us c) : c.bits.size = g.tileCount := by
  obtain ⟨_, _, -, hc⟩ := h.stands hw
  exact hc.marks.size

/-- The tile whose bit is asked for next is one of the grid. -/
theorem Reaches.lt_size {design : Design} {a : Address} {ts us : List Tile} {t : Tile}
    {c : WordClaim} {p : WordPlace} (hw : w.Counts g) (h : w.Reaches design a ts (t :: us) c)
    (hp : w.locate? t = .ok (some p)) : t.toNat < c.bits.size := by
  obtain ⟨found, hfound, hplace⟩ := locate_gives hw t
  obtain rfl := Except.ok.inj (hfound.symm.trans hp)
  rw [h.size hw]
  exact (Grid.locate?_eq_some_iff.1 hplace.symm).1

theorem Reaches.measures {design : Design} {a : Address} {c : WordClaim} (hw : w.Counts g)
    (h : w.Reaches design a a.tiles [] c) : c.span.Measures g.dimension a := by
  obtain ⟨_, _, hclaim, hc⟩ := h.stands hw
  exact measures_of_stands hw hclaim hc

/-- **The check meets no fault** on words, and its verdict is that on natural numbers. At every point
of it there is a bit for each tile of the grid, and none is asked for but these. When the area of an
address is worked out, its bounds are rows and columns of the tiles of the address. -/
theorem check_faultless {d : Nat} (hd : d ≤ 65535) (design : Design) :
    ∃ w, ofGrid ⟨d, d⟩ = .ok w ∧ w.check design = .ok (Design.check d design) ∧
      (∀ a ts us c, w.Reaches design a ts us c → c.bits.size = d * d) ∧
      (∀ a ts t us c p, w.Reaches design a ts (t :: us) c → w.locate? t = .ok (some p) →
        t.toNat < c.bits.size) ∧
      ∀ a c, w.Reaches design a a.tiles [] c → c.span.Measures d a := by
  have hword : (Grid.mk d d).imageSize < UInt32.size := Nat.lt_of_le_of_lt hd (by decide)
  obtain ⟨w, hw, hcounts, -, -⟩ := exists_ofGrid (g := ⟨d, d⟩) hd hword
  obtain ⟨verdict, hverdict, rfl⟩ := check_yields hcounts design
  exact ⟨w, hw, hverdict, fun _ _ _ _ h => h.size hcounts,
    fun _ _ _ _ _ _ h hp => h.lt_size hcounts hp, fun _ _ h => h.measures hcounts⟩

/-- A point between the tiles of the second address, and the one behind them. -/
theorem check_faultless_second :
    3 ≤ 65535 ∧ ∃ w c c', ofGrid ⟨3, 3⟩ = .ok w ∧
      w.check ["2", "0,1,3,4", "5", "6", "7", "8"] = .ok (.ok ()) ∧
      w.Reaches ["2", "0,1,3,4", "5", "6", "7", "8"] ⟨0, [1, 3, 4]⟩ [0, 1] [3, 4] c ∧
      w.locate? 3 = .ok (some ⟨1, 0⟩) ∧ 3 < c.bits.size ∧
      w.Reaches ["2", "0,1,3,4", "5", "6", "7", "8"] ⟨0, [1, 3, 4]⟩ [0, 1, 3, 4] [] c' ∧
      c'.bits.size = 3 * 3 ∧ c'.span = ⟨0, 1, 0, 1⟩ ∧ c'.span.Measures 3 ⟨0, [1, 3, 4]⟩ := by
  obtain ⟨w, hw, hcheck, hsize, hindex, hmeasures⟩ :=
    check_faultless (d := 3) (by decide) ["2", "0,1,3,4", "5", "6", "7", "8"]
  obtain rfl : (⟨3, 3, 1⟩ : WordGrid) = w := Except.ok.inj (Eq.trans rfl hw)
  have hread : Address.read? "0,1,3,4" = some ⟨0, [1, 3, 4]⟩ := by decide
  have hplace : (⟨3, 3, 1⟩ : WordGrid).locate? 3 = .ok (some ⟨1, 0⟩) := by decide
  have hsplit : ["2", "0,1,3,4", "5", "6", "7", "8"] =
      ["2"] ++ "0,1,3,4" :: ["5", "6", "7", "8"] := rfl
  have hbetween : (⟨3, 3, 1⟩ : WordGrid).Reaches ["2", "0,1,3,4", "5", "6", "7", "8"]
      ⟨0, [1, 3, 4]⟩ [0, 1] [3, 4] _ :=
    .within hsplit rfl rfl hread rfl rfl
  have hbehind : (⟨3, 3, 1⟩ : WordGrid).Reaches ["2", "0,1,3,4", "5", "6", "7", "8"]
      ⟨0, [1, 3, 4]⟩ [0, 1, 3, 4] [] _ :=
    .within hsplit rfl rfl hread rfl rfl
  exact ⟨by decide, _, _, _, hw, hcheck, hbetween, hplace, hindex _ _ _ _ _ _ hbetween hplace,
    hbehind, hsize _ _ _ _ hbehind, rfl, hmeasures _ _ hbehind⟩

end WordGrid

end CoverMosaic
