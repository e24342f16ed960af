import CoverMosaic.Proofs.Span
import Mathlib.Data.List.Nodup
/-!
# What the check of a design decides: `verify_partition`

The check claims tiles one after another and keeps no more than the list of those claimed. After
any number of accepted texts that list is the tiles of these texts, the latest first; with this
invariant one step accepts a text if and only if nothing is wrong with it (`step_eq_some_iff`), and
a whole run ends at the first text that offends (`claimAll_spec`).

Main results: `check_eq_ok_iff`, and `check_decides_partition` for the error as well.
-/
namespace CoverMosaic

theorem toNat_injective : Function.Injective UInt32.toNat := fun _ _ => UInt32.toNat_inj.1

theorem Address.numbers_nodup_iff {a : Address} : a.numbers.Nodup ↔ a.tiles.Nodup :=
  List.nodup_map_iff toNat_injective

namespace Design

/-! ## What can be wrong with a design -/

/-- The tiles of the texts that can be read, in the order in which they are written. -/
def tiles (design : Design) : List Tile :=
  (design.filterMap Address.read?).flatMap Address.tiles

/-- The numbers of these tiles. -/
def numbers (design : Design) : List Nat :=
  (design.filterMap Address.read?).flatMap Address.numbers

/-- What can be wrong with a text of a design, given the texts before it. -/
inductive Offends (d : Nat) (before : Design) (text : String) : Prop where
  | unreadable (h : Address.read? text = none)
  | outside {a : Address} (h : Address.read? text = some a) (n : Nat) (hn : n ∈ a.numbers)
    (hout : d * d ≤ n)
  | repeats {a : Address} (h : Address.read? text = some a) (hrep : ¬ a.numbers.Nodup)
  | overlaps {a : Address} (h : Address.read? text = some a) (n : Nat) (hn : n ∈ a.numbers)
    {other : String} {b : Address} (hother : other ∈ before) (hb : Address.read? other = some b)
    (hnb : n ∈ b.numbers)
  | ragged {a : Address} (h : Address.read? text = some a) (hrag : ¬ FillsRectangle d a.numbers)

/-- No text of the design offends. -/
def Sound (d : Nat) (design : Design) : Prop :=
  ∀ before text after, design = before ++ text :: after → ¬ Offends d before text

/-- The text offends, and none before it does. -/
def FirstOffender (d : Nat) (design : Design) (text : String) : Prop :=
  ∃ before after, design = before ++ text :: after ∧ Sound d before ∧ Offends d before text

theorem sound_nil (d : Nat) : Sound d [] := by
  intro before text after h
  cases before <;> cases h

theorem Sound.of_append {d : Nat} {before after : Design} (h : Sound d (before ++ after)) :
    Sound d before := by
  intro b t a hb
  exact h b t (a ++ after) (by simp [hb])

theorem sound_append_singleton {d : Nat} {before : Design} {text : String} :
    Sound d (before ++ [text]) ↔ Sound d before ∧ ¬ Offends d before text := by
  constructor
  · intro h
    exact ⟨h.of_append, h before text [] rfl⟩
  · rintro ⟨hs, ho⟩ b t a h
    rcases List.eq_nil_or_concat a with rfl | ⟨a, x, rfl⟩
    · obtain ⟨rfl, ht⟩ := List.append_inj' h rfl
      obtain rfl : text = t := by simpa using ht
      exact ho
    · rw [List.concat_eq_append, ← List.cons_append, ← List.append_assoc] at h
      exact hs b t a (List.append_inj' h rfl).1

theorem FirstOffender.not_sound {d : Nat} {design : Design} {text : String}
    (h : FirstOffender d design text) : ¬ Sound d design := by
  obtain ⟨before, after, hsplit, _, ho⟩ := h
  exact fun hs => hs before text after hsplit ho

theorem FirstOffender.unique {d : Nat} {design : Design} {text text' : String}
    (h : FirstOffender d design text) (h' : FirstOffender d design text') : text = text' := by
  obtain ⟨b, a, rfl, hs, ho⟩ := h
  obtain ⟨b', a', heq, hs', ho'⟩ := h'
  -- the part before one of them begins with the part before the other
  rcases List.append_eq_append_iff.1 heq with ⟨c, rfl, hc⟩ | ⟨c, rfl, hc⟩
  · cases c with
    | nil => exact (List.cons.inj hc).1
    | cons t c =>
      obtain ⟨rfl, -⟩ := List.cons.inj hc
      exact absurd ho (hs' b text c rfl)
  · cases c with
    | nil => exact (List.cons.inj hc).1.symm
    | cons t c =>
      obtain ⟨rfl, -⟩ := List.cons.inj hc
      exact absurd ho' (hs b' text' c rfl)

theorem mem_numbers_iff {design : Design} {n : Nat} :
    n ∈ design.numbers ↔ ∃ text ∈ design, ∃ a, Address.read? text = some a ∧ n ∈ a.numbers := by
  simp only [numbers, List.mem_flatMap, List.mem_filterMap]
  constructor
  · rintro ⟨a, ⟨text, htext, ha⟩, hn⟩; exact ⟨text, htext, a, ha, hn⟩
  · rintro ⟨text, htext, a, ha, hn⟩; exact ⟨a, ⟨text, htext, ha⟩, hn⟩

theorem not_offends_iff {d : Nat} {before : Design} {text : String} :
    ¬ Offends d before text ↔ ∃ a, Address.read? text = some a ∧ a.numbers.Nodup ∧
      (∀ n ∈ a.numbers, n < d * d ∧ n ∉ before.numbers) ∧ FillsRectangle d a.numbers := by
  constructor
  · intro h
    cases hread : Address.read? text with
    | none => exact absurd (.unreadable hread) h
    | some a =>
      refine ⟨a, rfl, ?_, fun n hn => ⟨?_, fun hmem => ?_⟩, ?_⟩
      · by_contra hrep
        exact h (.repeats hread hrep)
      · by_contra hout
        exact h (.outside hread n hn (Nat.not_lt.1 hout))
      · obtain ⟨other, hother, b, hb, hnb⟩ := mem_numbers_iff.1 hmem
        exact h (.overlaps hread n hn hother hb hnb)
      · by_contra hrag
        exact h (.ragged hread hrag)
  · rintro ⟨a, hread, hnodup, hmem, hrect⟩ ho
    cases ho with
    | unreadable h => simp [hread] at h
    | outside h n hn hout =>
      obtain rfl := Option.some.inj (hread.symm.trans h)
      exact Nat.not_le.2 (hmem n hn).1 hout
    | repeats h hrep =>
      obtain rfl := Option.some.inj (hread.symm.trans h)
      exact hrep hnodup
    | overlaps h n hn hother hb hnb =>
      obtain rfl := Option.some.inj (hread.symm.trans h)
      exact (hmem n hn).2 (mem_numbers_iff.2 ⟨_, hother, _, hb, hnb⟩)
    | ragged h hrag =>
      obtain rfl := Option.some.inj (hread.symm.trans h)
      exact hrag hrect

/-! ## Tiles and their numbers -/

theorem numbers_eq_map (design : Design) :
    design.numbers = design.tiles.map UInt32.toNat := by
  rw [numbers, tiles, List.map_flatMap]
  rfl

theorem toNat_mem_numbers {design : Design} {t : Tile} :
    t.toNat ∈ design.numbers ↔ t ∈ design.tiles := by
  rw [numbers_eq_map, List.mem_map_of_injective toNat_injective]

theorem numbers_append_singleton {before : Design} {text : String} {a : Address}
    (h : Address.read? text = some a) :
    numbers (before ++ [text]) = before.numbers ++ a.numbers := by
  simp [numbers, List.filterMap_append, h]

theorem tiles_append_singleton {before : Design} {text : String} {a : Address}
    (h : Address.read? text = some a) :
    tiles (before ++ [text]) = before.tiles ++ a.tiles := by
  simp [tiles, List.filterMap_append, h]

end Design

/-! ## One step -/

theorem claim?_eq_some_iff {g : Grid} :
    ∀ {ts claimed claimed' : List Tile}, claim? g claimed ts = some claimed' ↔
      (∀ t ∈ ts, t.toNat < g.tileCount ∧ t ∉ claimed) ∧ ts.Nodup ∧ claimed' = ts.reverse ++ claimed
  | [], claimed, claimed' => by simp [claim?, eq_comm]
  | t :: ts, claimed, claimed' => by
    rw [claim?]
    by_cases ht : t.toNat < g.tileCount ∧ t ∉ claimed
    · rw [if_pos ht, claim?_eq_some_iff, List.forall_mem_cons, List.nodup_cons, List.reverse_cons,
        List.append_assoc, List.singleton_append]
      constructor
      · rintro ⟨hmem, hnd, rfl⟩
        refine ⟨⟨ht, fun u hu => ⟨(hmem u hu).1, fun hc => (hmem u hu).2 (.tail _ hc)⟩⟩, ⟨?_, hnd⟩, rfl⟩
        -- `t` is claimed by now, so none of the later tiles can be `t`
        intro hts
        exact (hmem t hts).2 (.head _)
      · rintro ⟨⟨_, hmem⟩, ⟨hnt, hnd⟩, rfl⟩
        refine ⟨fun u hu => ⟨(hmem u hu).1, ?_⟩, hnd, rfl⟩
        rintro (_ | ⟨_, hc⟩)
        · exact hnt hu
        · exact (hmem u hu).2 hc
    · rw [if_neg ht]
      simp only [reduceCtorEq, false_iff, not_and]
      intro hall
      exact absurd (hall t (.head _)) ht

theorem claimAddress?_eq_some_iff {g : Grid} {a : Address} {claimed claimed' : List Tile} :
    claimAddress? g claimed a = some claimed' ↔
      a.numbers.Nodup ∧ (∀ t ∈ a.tiles, t.toNat < g.tileCount ∧ t ∉ claimed) ∧
      FillsRectangle g.dimension a.numbers ∧ claimed' = a.tiles.reverse ++ claimed := by
  simp only [claimAddress?, Option.bind_eq_bind, Option.bind_eq_some_iff, claim?_eq_some_iff,
    Address.span?_eq_some_iff]
  -- tiles that could be claimed are in the grid, so their span is found
  have hhas (hmem : ∀ t ∈ a.tiles, t.toNat < g.tileCount ∧ t ∉ claimed) : g.Has a :=
    List.forall_mem_map.2 fun t ht => (hmem t ht).1
  have harea (hnd : a.numbers.Nodup) (hhas : g.Has a) :
      FillsRectangle g.dimension a.numbers ↔ (a.span g.dimension).area = a.tiles.length := by
    rw [Span.fillsRectangle_iff_area (a.span_fits g.dimension) hhas hnd, Address.numbers,
      List.length_map]
  constructor
  · rintro ⟨_, ⟨hmem, hnd, rfl⟩, _, ⟨_, rfl⟩, hif⟩
    have hnd := Address.numbers_nodup_iff.2 hnd
    by_cases hlen : (a.span g.dimension).area = a.tiles.length
    · rw [if_pos hlen] at hif
      exact ⟨hnd, hmem, (harea hnd (hhas hmem)).2 hlen, (Option.some.inj hif).symm⟩
    · rw [if_neg hlen] at hif; cases hif
  · rintro ⟨hnd, hmem, hrect, rfl⟩
    exact ⟨_, ⟨hmem, Address.numbers_nodup_iff.1 hnd, rfl⟩, _, ⟨hhas hmem, rfl⟩,
      if_pos ((harea hnd (hhas hmem)).1 hrect)⟩

namespace Design

section
variable {d s : Nat}

/-- **One step.** With the tiles of the texts before it claimed, a text is accepted unless it
offends, and then its own tiles are claimed on top. -/
theorem step_eq_some_iff {before : Design} {text : String} {claimed : List Tile} :
    (Address.read? text).bind (claimAddress? ⟨d, s⟩ before.tiles.reverse) = some claimed ↔
      ¬ Offends d before text ∧ claimed = (tiles (before ++ [text])).reverse := by
  have hfresh (a : Address) : (∀ n ∈ a.numbers, n < d * d ∧ n ∉ before.numbers) ↔
      ∀ t ∈ a.tiles, t.toNat < d * d ∧ t ∉ before.tiles := by
    simp only [Address.numbers, List.forall_mem_map, toNat_mem_numbers]
  simp only [Option.bind_eq_some_iff, claimAddress?_eq_some_iff, not_offends_iff, hfresh,
    List.mem_reverse, Grid.tileCount]
  constructor
  · rintro ⟨a, hread, hnd, hmem, hrect, rfl⟩
    rw [tiles_append_singleton hread, List.reverse_append]
    exact ⟨⟨a, hread, hnd, hmem, hrect⟩, rfl⟩
  · rintro ⟨⟨a, hread, hnd, hmem, hrect⟩, rfl⟩
    rw [tiles_append_singleton hread, List.reverse_append]
    exact ⟨a, hread, hnd, hmem, hrect, rfl⟩

/-! ## The run -/

/-- **A run over the texts that follow sound ones.** -/
theorem claimAll_spec : ∀ (rest before : Design), Sound d before →
    match claimAll ⟨d, s⟩ before.tiles.reverse rest with
    | .ok claimed => Sound d (before ++ rest) ∧ claimed = (tiles (before ++ rest)).reverse
    | .error e => ∃ text, FirstOffender d (before ++ rest) text ∧ e = .badAddress text
  | [], before, hs => by simpa [claimAll] using hs
  | text :: rest, before, hs => by
    rw [claimAll]
    cases hstep : (Address.read? text).bind (claimAddress? ⟨d, s⟩ before.tiles.reverse) with
    | none =>
      refine ⟨text, ⟨before, rest, rfl, hs, ?_⟩, rfl⟩
      by_contra ho
      simpa [hstep] using (step_eq_some_iff (s := s)).2 ⟨ho, rfl⟩
    | some claimed =>
      obtain ⟨ho, rfl⟩ := step_eq_some_iff.1 hstep
      have ih := claimAll_spec rest (before ++ [text]) (sound_append_singleton.2 ⟨hs, ho⟩)
      rw [List.append_assoc, List.singleton_append] at ih
      exact ih

end

/-! ## The verdict -/

theorem numbers_of_mapM {design : Design} {as : List Address}
    (h : design.mapM Address.read? = some as) : design.numbers = as.flatMap Address.numbers := by
  have hread : design.filterMap Address.read? = as := by
    induction mapM_eq_some_iff.1 h with
    | nil => rfl
    | cons hx _ ih => rw [List.filterMap_cons_some hx, ih (mapM_eq_some_iff.2 ‹_›)]
  rw [numbers, hread]

/-- Soundness of the parts, taken together. -/
theorem sound_iff {d : Nat} {design : Design} :
    Sound d design ↔
      (∃ as, design.mapM Address.read? = some as ∧ ∀ a ∈ as, FillsRectangle d a.numbers) ∧
      design.numbers.Nodup ∧ ∀ n ∈ design.numbers, n < d * d := by
  -- from the end, since whether a text offends depends on the texts before it
  induction design using List.reverseRecOn with
  | nil => simp [sound_nil, numbers]
  | append_singleton before text ih =>
    rw [sound_append_singleton, ih, not_offends_iff]
    simp only [mapM_append_singleton_eq_some_iff]
    constructor
    · rintro ⟨⟨⟨as, has, hrects⟩, hnds, hlts⟩, a, ha, hnd, hmem, hrect⟩
      rw [numbers_append_singleton ha, List.nodup_append, List.forall_mem_append]
      refine ⟨⟨_, ⟨as, a, has, ha, rfl⟩, ?_⟩, ⟨hnds, hnd, ?_⟩, hlts, fun n hn => (hmem n hn).1⟩
      · rw [List.forall_mem_append, List.forall_mem_singleton]
        exact ⟨hrects, hrect⟩
      · rintro n hn m hm rfl
        exact (hmem n hm).2 hn
    · rintro ⟨⟨_, ⟨as, a, has, ha, rfl⟩, hrects⟩, hnds, hlts⟩
      rw [List.forall_mem_append, List.forall_mem_singleton] at hrects
      rw [numbers_append_singleton ha] at hnds hlts
      obtain ⟨hnds, hnd, hne⟩ := List.nodup_append.1 hnds
      obtain ⟨hlts, hlt⟩ := List.forall_mem_append.1 hlts
      refine ⟨⟨⟨as, has, hrects.1⟩, hnds, hlts⟩, a, ha, hnd, fun n hn => ⟨hlt n hn, ?_⟩, hrects.2⟩
      exact fun hmem => hne n hmem n hn rfl

theorem perm_range_iff {N : Nat} {ns : List Nat} (hnd : ns.Nodup) (hlt : ∀ n ∈ ns, n < N) :
    ns.Perm (List.range N) ↔ ns.length = N := by
  constructor
  · intro h; rw [h.length_eq, List.length_range]
  · intro h
    have hsub : ns.Subperm (List.range N) :=
      hnd.subperm fun n hn => List.mem_range.2 (hlt n hn)
    exact hsub.perm_of_length_le (by rw [List.length_range, h])

theorem partitions_iff {d : Nat} {design : Design} :
    (∃ as, design.mapM Address.read? = some as ∧ Partitions d as) ↔
      Sound d design ∧ design.numbers.length = d * d := by
  rw [sound_iff]
  constructor
  · rintro ⟨as, has, hperm, hrect⟩
    rw [← numbers_of_mapM has] at hperm
    have hlt : ∀ n ∈ design.numbers, n < d * d := fun n hn => List.mem_range.1 (hperm.mem_iff.1 hn)
    have hnd := hperm.nodup_iff.2 List.nodup_range
    exact ⟨⟨⟨as, has, hrect⟩, hnd, hlt⟩, (perm_range_iff hnd hlt).1 hperm⟩
  · rintro ⟨⟨⟨as, has, hrect⟩, hnd, hlt⟩, hlen⟩
    refine ⟨as, has, ?_, hrect⟩
    rw [← numbers_of_mapM has]
    exact (perm_range_iff hnd hlt).2 hlen

/-- A sound design of another length leaves a tile over. -/
theorem length_ne_iff_uncovered {d : Nat} {design : Design} (hs : Sound d design) :
    design.numbers.length ≠ d * d ↔ ∃ n < d * d, n ∉ design.numbers := by
  obtain ⟨-, hnd, hlt⟩ := sound_iff.1 hs
  rw [Ne, ← perm_range_iff hnd hlt, List.perm_ext_iff_of_nodup hnd List.nodup_range]
  simp only [List.mem_range]
  constructor
  · intro h
    by_contra hall
    push Not at hall
    exact h fun n => ⟨hlt n, hall n⟩
  · rintro ⟨n, hn, hne⟩ h
    exact hne ((h n).2 hn)

theorem check_eq (d : Nat) (design : Design) :
    Design.check d design = match claimAll ⟨d, d⟩ [] design with
      | .ok claimed =>
        if claimed.length = d * d then .ok ()
        else .error (.badAddress (String.intercalate " " design))
      | .error e => .error e := by
  simp only [Design.check]
  cases claimAll ⟨d, d⟩ [] design <;> rfl

/-- The three ways in which a check can end. -/
theorem check_cases (d : Nat) (design : Design) :
    (∃ text, FirstOffender d design text ∧ Design.check d design = .error (.badAddress text)) ∨
    (Sound d design ∧ design.numbers.length = d * d ∧ Design.check d design = .ok ()) ∨
    (Sound d design ∧ design.numbers.length ≠ d * d ∧
      Design.check d design = .error (.badAddress (String.intercalate " " design))) := by
  have hrun : match claimAll ⟨d, d⟩ [] design with
      | .ok claimed => Sound d design ∧ claimed = design.tiles.reverse
      | .error e => ∃ text, FirstOffender d design text ∧ e = .badAddress text :=
    claimAll_spec design [] (sound_nil d)
  rw [check_eq]
  cases hall : claimAll ⟨d, d⟩ [] design with
  | error e =>
    rw [hall] at hrun
    obtain ⟨text, hfirst, rfl⟩ := hrun
    exact .inl ⟨text, hfirst, rfl⟩
  | ok claimed =>
    rw [hall] at hrun
    obtain ⟨hsound, rfl⟩ := hrun
    rw [numbers_eq_map, List.length_map]
    by_cases hlen : design.tiles.length = d * d
    · exact .inr (.inl ⟨hsound, hlen, by simp [hlen]⟩)
    · exact .inr (.inr ⟨hsound, hlen, by simp [hlen]⟩)

theorem check_eq_ok_iff {d : Nat} {design : Design} :
    Design.check d design = .ok () ↔
      ∃ as, design.mapM Address.read? = some as ∧ Partitions d as := by
  rw [partitions_iff]
  rcases check_cases d design with ⟨_, hfirst, he⟩ | ⟨hs, hlen, hok⟩ | ⟨_, hlen, he⟩
  · simp [he, hfirst.not_sound]
  · simp [hok, hs, hlen]
  · simp [he, hlen]

theorem check_eq_error_iff {d : Nat} {design : Design} {e : CoverError} :
    Design.check d design = .error e ↔
      (∃ text, FirstOffender d design text ∧ e = .badAddress text) ∨
      (Sound d design ∧ (∃ n < d * d, n ∉ design.numbers) ∧
        e = .badAddress (String.intercalate " " design)) := by
  rcases check_cases d design with ⟨text, hfirst, he⟩ | ⟨hs, hlen, hok⟩ | ⟨hs, hlen, he⟩
  · rw [he]
    constructor
    · intro h; exact .inl ⟨text, hfirst, (Except.error.inj h).symm⟩
    · rintro (⟨text', hfirst', rfl⟩ | ⟨hs, -⟩)
      · rw [hfirst.unique hfirst']
      · exact absurd hs hfirst.not_sound
  · rw [hok]
    constructor
    · intro h; cases h
    · rintro (⟨_, hfirst, _⟩ | ⟨_, huncovered, _⟩)
      · exact absurd hs hfirst.not_sound
      · exact absurd hlen ((length_ne_iff_uncovered hs).2 huncovered)
  · rw [he]
    constructor
    · intro h
      exact .inr ⟨hs, (length_ne_iff_uncovered hs).1 hlen, (Except.error.inj h).symm⟩
    · rintro (⟨_, hfirst, _⟩ | ⟨_, _, rfl⟩)
      · exact absurd hs hfirst.not_sound
      · rfl

/-- **The check decides partitions and names the first offender.** It accepts exactly the designs
whose texts all read as addresses that partition the grid. The error is the first text that
offends or, where none does but a tile is left over, all texts with a space between two. -/
theorem check_decides_partition (d : Nat) (design : Design) :
    (Design.check d design = .ok () ↔
      ∃ as, design.mapM Address.read? = some as ∧ Partitions d as) ∧
    ∀ e, Design.check d design = .error e ↔
      (∃ text, FirstOffender d design text ∧ e = .badAddress text) ∨
      (Sound d design ∧ (∃ n < d * d, n ∉ design.numbers) ∧
        e = .badAddress (String.intercalate " " design)) :=
  ⟨check_eq_ok_iff, fun _ => check_eq_error_iff⟩

/-- The second address is the first that offends, though the third one does as well. -/
example : Design.check 3 ["0,3", "1,2,4", "3", "9"] = .error (.badAddress "1,2,4") := by decide

end Design

end CoverMosaic
