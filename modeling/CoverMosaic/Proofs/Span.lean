import CoverMosaic.Design.Partition
import CoverMosaic.Proofs.Traversal
import Mathlib.Data.Finset.Prod
import Mathlib.Order.Interval.Finset.Nat
/-!
# The span of an address: the bounds in `verify_partition`

The span of an address is the least range of rows and the least range of columns that hold its
tiles. A grid that has the tiles always finds it (`span?_eq_some_iff`), and it is tight: each of
its four bounds is the row or column of a tile (`span_fits`).

Main result `fillsRectangle_iff_area`: tiles without repetition fill a rectangle if and only if
there are as many of them as places in the span. Counting decides it because the tiles are among
the places of the span, so that equally many are all of them.
-/
namespace CoverMosaic

/-! ## Numbers and places -/

namespace Place

/-- Row and column of a tile number. -/
def ofNumber (d n : Nat) : Place := ⟨n / d, n % d⟩

/-- The tile number of a row and a column. -/
def number (d : Nat) (p : Place) : Nat := p.row * d + p.col

/-- The place is in a grid of that dimension. -/
def In (d : Nat) (p : Place) : Prop := p.row < d ∧ p.col < d

theorem number_ofNumber (d n : Nat) : (ofNumber d n).number d = n := Nat.div_add_mod' n d

theorem ofNumber_number {d : Nat} {p : Place} (h : p.col < d) : ofNumber d (p.number d) = p := by
  have hd : 0 < d := by omega
  obtain ⟨row, col⟩ := p
  simp only [ofNumber, number, mk.injEq]
  rw [Nat.add_comm, Nat.add_mul_div_right _ _ hd, Nat.add_mul_mod_self_right,
    Nat.div_eq_of_lt h, Nat.mod_eq_of_lt h]
  exact ⟨Nat.zero_add row, rfl⟩

theorem ofNumber_in {d n : Nat} (h : n < d * d) : (ofNumber d n).In d := by
  have hd : 0 < d := Nat.pos_of_mul_pos_left (Nat.zero_lt_of_lt h)
  exact ⟨Nat.div_lt_of_lt_mul h, Nat.mod_lt n hd⟩

theorem number_lt {d : Nat} {p : Place} (h : p.In d) : p.number d < d * d := by
  have hrow : (p.row + 1) * d ≤ d * d := Nat.mul_le_mul_right d h.1
  have hcol := h.2
  rw [Nat.add_mul] at hrow
  simp only [number]
  omega

end Place

/-! ## Spans -/

namespace Span

/-- The place is between the bounds. -/
def Holds (s : Span) (p : Place) : Prop :=
  (s.top ≤ p.row ∧ p.row ≤ s.bottom) ∧ (s.left ≤ p.col ∧ p.col ≤ s.right)

/-- The span is in a grid of that dimension, and its bounds stand in the right order. -/
def In (d : Nat) (s : Span) : Prop :=
  (s.top ≤ s.bottom ∧ s.bottom < d) ∧ (s.left ≤ s.right ∧ s.right < d)

theorem In.area_le {d : Nat} {s : Span} (h : s.In d) : s.area ≤ d * d := by
  obtain ⟨hrow, hcol⟩ := h
  exact Nat.mul_le_mul (by omega) (by omega)

theorem single_in {d : Nat} {p : Place} (h : p.In d) : (single p).In d :=
  ⟨⟨Nat.le_refl _, h.1⟩, Nat.le_refl _, h.2⟩

/-- The span holds the places, and each of its bounds is reached by one of them. -/
structure Fits (s : Span) (ps : List Place) : Prop where
  holds : ∀ p ∈ ps, s.Holds p
  top_mem : s.top ∈ ps.map Place.row
  bottom_mem : s.bottom ∈ ps.map Place.row
  left_mem : s.left ∈ ps.map Place.col
  right_mem : s.right ∈ ps.map Place.col

theorem single_fits (p : Place) : (single p).Fits [p] := by
  constructor <;> simp [single, Holds]

theorem min_mem_append {a b : Nat} {ns : List Nat} (h : a ∈ ns) : min a b ∈ ns ++ [b] := by
  rcases Nat.le_total a b with hab | hab
  · rw [Nat.min_eq_left hab]; exact List.mem_append_left _ h
  · rw [Nat.min_eq_right hab]; simp

theorem max_mem_append {a b : Nat} {ns : List Nat} (h : a ∈ ns) : max a b ∈ ns ++ [b] := by
  rcases Nat.le_total a b with hab | hab
  · rw [Nat.max_eq_right hab]; simp
  · rw [Nat.max_eq_left hab]; exact List.mem_append_left _ h

theorem insert_fits {s : Span} {ps : List Place} (h : s.Fits ps) (p : Place) :
    (s.insert p).Fits (ps ++ [p]) := by
  obtain ⟨holds, htop, hbottom, hleft, hright⟩ := h
  refine ⟨fun q hq => ?_, ?_, ?_, ?_, ?_⟩
  · rcases List.mem_append.1 hq with hq | hq
    · have := holds q hq
      simp only [Holds, insert] at this ⊢
      omega
    · obtain rfl := List.mem_singleton.1 hq
      simp only [Holds, insert]
      omega
  · rw [List.map_append]; exact min_mem_append htop
  · rw [List.map_append]; exact max_mem_append hbottom
  · rw [List.map_append]; exact min_mem_append hleft
  · rw [List.map_append]; exact max_mem_append hright

theorem foldl_insert_fits {s : Span} {ps : List Place} (h : s.Fits ps) (qs : List Place) :
    (qs.foldl insert s).Fits (ps ++ qs) := by
  induction qs generalizing s ps with
  | nil => simpa using h
  | cons q qs ih => simpa using ih (insert_fits h q)

/-- No span that holds the places is smaller than a fitting one. -/
theorem Fits.least {s r : Span} {ps : List Place} (h : s.Fits ps) (hr : ∀ p ∈ ps, r.Holds p) :
    (r.top ≤ s.top ∧ s.bottom ≤ r.bottom) ∧ (r.left ≤ s.left ∧ s.right ≤ r.right) := by
  obtain ⟨p, hp, htop⟩ := List.mem_map.1 h.top_mem
  obtain ⟨q, hq, hbottom⟩ := List.mem_map.1 h.bottom_mem
  obtain ⟨u, hu, hleft⟩ := List.mem_map.1 h.left_mem
  obtain ⟨v, hv, hright⟩ := List.mem_map.1 h.right_mem
  have := hr p hp
  have := hr q hq
  have := hr u hu
  have := hr v hv
  simp only [Holds] at *
  omega

theorem Fits.within {s : Span} {d : Nat} {ns : List Nat} (h : s.Fits (ns.map (Place.ofNumber d)))
    (hns : ∀ n ∈ ns, n < d * d) : s.In d := by
  have hin : ∀ p ∈ ns.map (Place.ofNumber d), p.In d := by
    intro p hp
    obtain ⟨n, hn, rfl⟩ := List.mem_map.1 hp
    exact Place.ofNumber_in (hns n hn)
  obtain ⟨p, hp, htop⟩ := List.mem_map.1 h.top_mem
  obtain ⟨q, hq, hbottom⟩ := List.mem_map.1 h.bottom_mem
  obtain ⟨u, hu, hright⟩ := List.mem_map.1 h.right_mem
  have := h.holds p hp
  have := (hin q hq).1
  have := (hin u hu).2
  simp only [Holds, In] at *
  omega

/-! ## Counting -/

/-- The tile numbers of the places that a span holds. -/
def numbers (d : Nat) (s : Span) : Finset Nat :=
  (Finset.Icc s.top s.bottom ×ˢ Finset.Icc s.left s.right).image fun rc =>
    Place.number d ⟨rc.1, rc.2⟩

theorem mem_numbers {d n : Nat} {s : Span} : n ∈ s.numbers d ↔ ∃ p, s.Holds p ∧ p.number d = n := by
  simp only [numbers, Finset.mem_image, Finset.mem_product, Finset.mem_Icc, Prod.exists]
  constructor
  · rintro ⟨row, col, h, rfl⟩; exact ⟨⟨row, col⟩, h, rfl⟩
  · rintro ⟨⟨row, col⟩, h, rfl⟩; exact ⟨row, col, h, rfl⟩

theorem card_numbers {d : Nat} {s : Span} (hrow : s.top ≤ s.bottom) (hcol : s.left ≤ s.right)
    (hd : s.right < d) : (s.numbers d).card = s.area := by
  have hinj : Set.InjOn (fun rc : Nat × Nat => Place.number d ⟨rc.1, rc.2⟩)
      (Finset.Icc s.top s.bottom ×ˢ Finset.Icc s.left s.right : Finset (Nat × Nat)) := by
    rintro ⟨r, c⟩ h ⟨r', c'⟩ h' heq
    simp only [Finset.coe_product, Finset.coe_Icc, Set.mem_prod, Set.mem_Icc] at h h'
    have e := congrArg (Place.ofNumber d) heq
    simp only at e
    rw [Place.ofNumber_number (by simp only; omega), Place.ofNumber_number (by simp only; omega)] at e
    cases e; rfl
  rw [numbers, Finset.card_image_of_injOn hinj, Finset.card_product, Nat.card_Icc, Nat.card_Icc,
    area, Nat.sub_add_comm hrow, Nat.sub_add_comm hcol]

section
variable {d : Nat} {ns : List Nat} {s : Span}

/-- Numbers fill a rectangle exactly if they leave no place of their span out. -/
theorem fillsRectangle_iff_holds (hs : s.Fits (ns.map (Place.ofNumber d)))
    (hns : ∀ n ∈ ns, n < d * d) :
    FillsRectangle d ns ↔ ∀ p, s.Holds p → p.number d ∈ ns := by
  constructor
  · rintro ⟨top, bottom, left, right, hbottom, hright, hmem⟩ p hp
    have hin : ∀ q ∈ ns.map (Place.ofNumber d), (Span.mk top bottom left right).Holds q := by
      intro q hq
      obtain ⟨n, hn, rfl⟩ := List.mem_map.1 hq
      obtain ⟨row, col, hrow, hcol, rfl⟩ := (hmem n).1 hn
      have hplace := Place.ofNumber_number (d := d) (p := ⟨row, col⟩) (by simp only; omega)
      rw [Place.number] at hplace
      rw [hplace]
      exact ⟨hrow, hcol⟩
    -- the span is the least one, so the rectangle holds all of its places
    have hle := hs.least hin
    obtain ⟨hrow, hcol⟩ := hp
    exact (hmem _).2 ⟨p.row, p.col, by simp only at hle; omega, by simp only at hle; omega, rfl⟩
  · intro hall
    have hw := hs.within hns
    refine ⟨s.top, s.bottom, s.left, s.right, hw.1.2, hw.2.2, fun n => ⟨fun hn => ?_, ?_⟩⟩
    · have := hs.holds _ (List.mem_map_of_mem hn)
      exact ⟨_, _, this.1, this.2, (Place.number_ofNumber d n).symm⟩
    · rintro ⟨row, col, hrow, hcol, rfl⟩
      exact hall ⟨row, col⟩ ⟨hrow, hcol⟩

/-- **Counting decides rectangles.** -/
theorem fillsRectangle_iff_area (hs : s.Fits (ns.map (Place.ofNumber d)))
    (hns : ∀ n ∈ ns, n < d * d) (hnd : ns.Nodup) : FillsRectangle d ns ↔ s.area = ns.length := by
  have hw := hs.within hns
  have hcard := card_numbers hw.1.1 hw.2.1 hw.2.2
  have hlen : ns.toFinset.card = ns.length := List.toFinset_card_of_nodup hnd
  have hsub : ns.toFinset ⊆ s.numbers d := by
    intro n hn
    have := hs.holds _ (List.mem_map_of_mem (List.mem_toFinset.1 hn))
    exact mem_numbers.2 ⟨_, this, Place.number_ofNumber d n⟩
  rw [fillsRectangle_iff_holds hs hns, ← hcard, ← hlen]
  constructor
  · intro hall
    refine congrArg Finset.card (Finset.Subset.antisymm (fun n hn => ?_) hsub)
    obtain ⟨p, hp, rfl⟩ := mem_numbers.1 hn
    exact List.mem_toFinset.2 (hall p hp)
  · intro heq p hp
    have hset := Finset.eq_of_subset_of_card_le hsub (Nat.le_of_eq heq)
    rw [← List.mem_toFinset, hset]
    exact mem_numbers.2 ⟨p, hp, rfl⟩

end

end Span

/-! ## The span of an address -/

/-- The grid has every tile of the address. -/
def Grid.Has (g : Grid) (a : Address) : Prop := ∀ n ∈ a.numbers, n < g.tileCount

instance (g : Grid) (a : Address) : Decidable (g.Has a) :=
  inferInstanceAs (Decidable (∀ n ∈ a.numbers, n < g.tileCount))

namespace Address

/-- The rows and columns that the tiles of an address span. -/
def span (d : Nat) (a : Address) : Span :=
  (a.others.map fun t => Place.ofNumber d t.toNat).foldl Span.insert
    (Span.single (Place.ofNumber d a.first.toNat))

theorem numbers_eq (a : Address) : a.numbers = a.first.toNat :: a.others.map UInt32.toNat := rfl

theorem span_fits (d : Nat) (a : Address) : (a.span d).Fits (a.numbers.map (Place.ofNumber d)) := by
  have h := Span.foldl_insert_fits (Span.single_fits (Place.ofNumber d a.first.toNat))
    (a.others.map fun t => Place.ofNumber d t.toNat)
  rw [numbers_eq, List.map_cons, List.map_map]
  exact h

theorem span_in {g : Grid} {a : Address} (h : g.Has a) : (a.span g.dimension).In g.dimension :=
  (a.span_fits g.dimension).within h

/-- The span of a rectangle holds the tiles of the address and nothing else. -/
theorem span_holds_iff {d : Nat} {a : Address} {p : Place} (hlt : ∀ n ∈ a.numbers, n < d * d)
    (hrect : FillsRectangle d a.numbers) (hp : p.col < d) :
    (a.span d).Holds p ↔ p.number d ∈ a.numbers := by
  have hfits := a.span_fits d
  constructor
  · exact (Span.fillsRectangle_iff_holds hfits hlt).1 hrect p
  · intro hmem
    have h := hfits.holds _ (List.mem_map_of_mem hmem)
    rwa [Place.ofNumber_number hp] at h

theorem span?_eq_some_iff {g : Grid} {a : Address} {s : Span} :
    a.span? g = some s ↔ g.Has a ∧ s = a.span g.dimension := by
  have hall (ps : List Place) : a.others.mapM g.locate? = some ps ↔
      (∀ t ∈ a.others, t.toNat < g.tileCount) ∧
        ps = a.others.map fun t => ⟨t.toNat / g.dimension, t.toNat % g.dimension⟩ :=
    mapM_eq_some_iff_map fun _ _ => Grid.locate?_eq_some_iff
  simp only [span?, Option.bind_eq_bind, Option.bind_eq_some_iff, Grid.locate?_eq_some_iff, hall]
  simp only [Grid.Has, numbers_eq, List.forall_mem_cons, List.forall_mem_map, span, Place.ofNumber]
  constructor
  · rintro ⟨_, ⟨hfirst, rfl⟩, _, ⟨hothers, rfl⟩, h⟩
    exact ⟨⟨hfirst, hothers⟩, (Option.some.inj h).symm⟩
  · rintro ⟨⟨hfirst, hothers⟩, rfl⟩
    exact ⟨_, ⟨hfirst, rfl⟩, _, ⟨hothers, rfl⟩, rfl⟩

end Address

end CoverMosaic
