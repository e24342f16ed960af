import CoverMosaic.Grid
import CoverMosaic.Proofs.Traversal
import Mathlib.Data.List.Induction
/-!
# Which texts are addresses: a `TileAddress` read and displayed

An address is cut at its commas, and each field is a tile number: one or more digits with a plus
sign or none in front and blanks around. Zeros in front of a number do not count, so a number below
`2 ^ 32` may be written with any number of digits. The grammar says this without the reader; each
part of the reader answers to a part of it (`cuts_iff`, `trim_of_framed`, `Decimal.read?_eq_some_iff`,
`Tile.read?_eq_some_iff`).

The written form is one of the texts of an address, and the same one for all of them.

Main results `ofText_follows_grammar` and `text_normalizes`.
-/
namespace CoverMosaic

/-! ## Numbers -/

namespace Text.Decimal

/-- The character is the digit of that value. -/
def IsDigit (c : Char) (d : Nat) : Prop := d < 10 ∧ c.toNat = '0'.toNat + d

/-- One or more digits and their value. -/
inductive Numeral : List Char → Nat → Prop where
  | digit {c : Char} {d : Nat} (h : IsDigit c d) : Numeral [c] d
  | append {cs : List Char} {n : Nat} {c : Char} {d : Nat} (hcs : Numeral cs n) (h : IsDigit c d) :
    Numeral (cs ++ [c]) (10 * n + d)

/-- A numeral with a plus sign in front of it or none. -/
inductive Signed : List Char → Nat → Prop where
  | plain {cs : List Char} {n : Nat} (h : Numeral cs n) : Signed cs n
  | plus {cs : List Char} {n : Nat} (h : Numeral cs n) : Signed ('+' :: cs) n

variable {c : Char} {cs : List Char} {n : Nat}

theorem isDigit_iff : c.isDigit = true ↔ IsDigit c (c.toNat - '0'.toNat) := by
  simp only [Char.isDigit_iff_toNat, IsDigit, Char.reduceToNat]
  omega

theorem IsDigit.value {d : Nat} (h : IsDigit c d) : c.toNat - '0'.toNat = d := by
  obtain ⟨_, h⟩ := h
  omega

theorem IsDigit.isDigit {d : Nat} (h : IsDigit c d) : c.isDigit = true := by
  rw [isDigit_iff, h.value]
  exact h

/-- The digit at the end of a number counts once and all that is in front of it ten times. -/
theorem ofDigitChars_append_singleton (cs : List Char) (c : Char) :
    Nat.ofDigitChars 10 (cs ++ [c]) 0 =
      10 * Nat.ofDigitChars 10 cs 0 + (c.toNat - '0'.toNat) := by
  rw [Nat.ofDigitChars_append, Nat.ofDigitChars_cons, Nat.ofDigitChars_nil]

theorem Numeral.isNumeral (h : Numeral cs n) :
    isNumeral cs = true ∧ Nat.ofDigitChars 10 cs 0 = n := by
  induction h with
  | @digit c d h =>
    refine ⟨by simp [isNumeral_iff, h.isDigit], ?_⟩
    rw [Nat.ofDigitChars_cons, Nat.ofDigitChars_nil, h.value, Nat.mul_zero, Nat.zero_add]
  | @append cs n c d _ h ih =>
    obtain ⟨hcs, rfl⟩ := ih
    refine ⟨?_, by rw [ofDigitChars_append_singleton, h.value]⟩
    rw [isNumeral_iff] at hcs ⊢
    refine ⟨by simp, List.forall_mem_append.2 ⟨hcs.2, by simp [h.isDigit]⟩⟩

theorem numeral_ofDigitChars (h : isNumeral cs = true) :
    Numeral cs (Nat.ofDigitChars 10 cs 0) := by
  induction cs using List.reverseRecOn with
  | nil => simp [isNumeral] at h
  | append_singleton cs c ih =>
    obtain ⟨hcs, hc⟩ := List.forall_mem_append.1 (isNumeral_iff.1 h).2
    have hc := isDigit_iff.1 (hc c (by simp))
    rw [ofDigitChars_append_singleton]
    by_cases hnil : cs = []
    · subst hnil
      simpa using Numeral.digit hc
    · exact .append (ih (isNumeral_iff.2 ⟨hnil, hcs⟩)) hc

theorem numeral_iff : Numeral cs n ↔ isNumeral cs = true ∧ Nat.ofDigitChars 10 cs 0 = n := by
  constructor
  · exact Numeral.isNumeral
  · rintro ⟨h, rfl⟩
    exact numeral_ofDigitChars h

theorem read?_eq_some_iff : read? cs = some n ↔ Signed cs n := by
  have hread : read? cs = some n ↔ Numeral (dropPlus cs) n := by
    rw [read?, numeral_iff]
    simp
  rw [hread]
  constructor
  · intro h
    unfold dropPlus at h
    split at h
    · exact .plus h
    · exact .plain h
  · intro h
    cases h with
    | plain h => rwa [dropPlus_eq_self h.isNumeral.1]
    | plus h => exact h

theorem Numeral.isDigit (h : Numeral cs n) : ∀ c ∈ cs, c.isDigit = true :=
  (isNumeral_iff.1 h.isNumeral.1).2

theorem isBlank_of_isDigit (h : c.isDigit = true) : isBlank c = false := by
  simp only [Char.isDigit_iff_toNat, Char.reduceToNat] at h
  simp [isBlank, blankRanges]
  omega

theorem Signed.isBlank (h : Signed cs n) : ∀ c ∈ cs, isBlank c = false := by
  cases h with
  | plain h =>
    intro c hc
    exact isBlank_of_isDigit (h.isDigit c hc)
  | plus h =>
    intro c hc
    rcases List.mem_cons.1 hc with rfl | hc
    · decide
    · exact isBlank_of_isDigit (h.isDigit c hc)

end Text.Decimal

/-! ## Fields -/

namespace Text

/-- The fields of a text: there is one at least, none of them has the separator, and written with
the separator between two of them they are the text. -/
structure Cuts (sep : Char) (cs : List Char) (fs : List (List Char)) : Prop where
  ne_nil : fs ≠ []
  not_mem : ∀ f ∈ fs, sep ∉ f
  join_eq : join sep fs = cs

theorem cuts_iff {sep : Char} {cs : List Char} {fs : List (List Char)} :
    Cuts sep cs fs ↔ fs = fields sep cs := by
  constructor
  · rintro ⟨hne, hmem, rfl⟩
    exact (fields_join hne hmem).symm
  · rintro rfl
    exact ⟨fields_ne_nil sep cs, fun f hf => not_mem_of_mem_fields hf, join_fields sep cs⟩

end Text

/-! ## Tiles and addresses -/

/-- The characters are the number of a tile with blanks around it. -/
def Tile.Spells (cs : List Char) (t : Tile) : Prop :=
  ∃ core, Text.Decimal.Signed core t.toNat ∧ Text.Framed core cs

theorem Tile.read?_eq_some_iff {cs : List Char} {t : Tile} :
    Tile.read? cs = some t ↔ Tile.Spells cs t := by
  have hread : Tile.read? cs = some t ↔ Text.Decimal.read? (Text.trim cs) = some t.toNat := by
    cases hnumber : Text.Decimal.read? (Text.trim cs) with
    | none => simp [Tile.read?, hnumber]
    | some n =>
      by_cases hn : n < UInt32.size
      · simp [Tile.read?, hnumber, hn, ← UInt32.toNat_inj]
      · have hlt := t.toNat_lt_size
        have hne : n ≠ t.toNat := by omega
        simp [Tile.read?, hnumber, hn, hne]
  rw [hread, Text.Decimal.read?_eq_some_iff]
  constructor
  · intro h
    exact ⟨_, h, Text.framed_trim cs⟩
  · rintro ⟨core, hcore, hframed⟩
    rwa [Text.trim_of_framed hframed hcore.isBlank]

theorem Tile.spells_write (t : Tile) : Tile.Spells (Text.Decimal.write t.toNat) t := by
  have hread : Text.Decimal.read? (Text.Decimal.write t.toNat) = some t.toNat :=
    Text.Decimal.read?_write _
  exact ⟨_, Text.Decimal.read?_eq_some_iff.1 hread, Text.framed_self _⟩

namespace Address

/-- The text has as many fields as there are tiles, and these are their numbers in the same order. -/
def Spells (text : String) (ts : List Tile) : Prop :=
  ∃ fs, Text.Cuts ',' text.toList fs ∧ List.Forall₂ Tile.Spells fs ts

variable {text : String} {ts : List Tile}

theorem spells_iff : Spells text ts ↔ (Text.fields ',' text.toList).mapM Tile.read? = some ts := by
  simp only [Spells, Text.cuts_iff, exists_eq_left, mapM_eq_some_iff, Tile.read?_eq_some_iff]

theorem Spells.ne_nil (h : Spells text ts) : ts ≠ [] := by
  obtain ⟨fs, hcuts, hall⟩ := h
  rintro rfl
  exact hcuts.ne_nil (List.forall₂_nil_right_iff.1 hall)

theorem read?_eq_some_iff {a : Address} : read? text = some a ↔ Spells text a.tiles := by
  simp only [read?, Option.bind_eq_bind, Option.bind_eq_some_iff, ofTiles?_eq_some_iff, spells_iff]
  constructor
  · rintro ⟨_, hts, rfl⟩
    exact hts
  · intro hts
    exact ⟨_, hts, rfl⟩

theorem ofText_eq_ok_iff {a : Address} : ofText text = .ok a ↔ Spells text a.tiles := by
  rw [← read?_eq_some_iff, ofText]
  cases read? text <;> simp

theorem exists_ofText_iff : (∃ a, ofText text = .ok a ∧ a.tiles = ts) ↔ Spells text ts := by
  constructor
  · rintro ⟨a, ha, rfl⟩
    exact ofText_eq_ok_iff.1 ha
  · intro h
    obtain ⟨t, ts, rfl⟩ := List.exists_cons_of_ne_nil h.ne_nil
    exact ⟨⟨t, ts⟩, ofText_eq_ok_iff.2 h, rfl⟩

theorem ofText_eq_error_iff {e : CoverError} :
    ofText text = .error e ↔ (∀ ts, ¬ Spells text ts) ∧ e = .badAddress text := by
  rw [eq_error_iff_forall_ne_ok fun e => ofText_error]
  simp [← exists_ofText_iff]

/-- **The reader of addresses follows the grammar.** Tiles are read from a text just where its
fields are their numbers, so there is one tile for each field, in the order of the fields. Any other
text is an error that names it. -/
theorem ofText_follows_grammar (text : String) :
    (∀ ts, (∃ a, ofText text = .ok a ∧ a.tiles = ts) ↔ Spells text ts) ∧
    (∀ e, ofText text = .error e ↔ (∀ ts, ¬ Spells text ts) ∧ e = .badAddress text) ∧
    ∀ ts, Spells text ts → ts ≠ [] := by
  refine ⟨fun ts => ?_, fun e => ?_, fun ts h => ?_⟩
  · exact exists_ofText_iff
  · exact ofText_eq_error_iff
  · exact h.ne_nil

/-- Blanks other than the space (U+3000 and U+00A0), a plus sign, leading zeros and a tile that is
named twice. -/
example : ofText "\u3000+0000000000007\u00a0,7" = .ok ⟨7, [7]⟩ := by decide

/-- The zero-width space U+200B is no blank. -/
example : ofText "\u200b7" = .error (.badAddress "\u200b7") := by decide

/-! ## The written form -/

/-- The fields of the written form are plain decimal numbers. -/
theorem cuts_text (a : Address) :
    Text.Cuts ',' a.text.toList (a.tiles.map fun t => Text.Decimal.write t.toNat) where
  ne_nil := List.cons_ne_nil _ _
  not_mem := by
    intro f hf
    obtain ⟨t, _, rfl⟩ := List.mem_map.1 hf
    exact Text.Decimal.not_mem_write (by decide)
  join_eq := by rw [text, String.toList_ofList]

theorem spells_text (a : Address) : Spells a.text a.tiles := by
  refine ⟨_, a.cuts_text, ?_⟩
  rw [List.forall₂_map_left_iff, List.forall₂_same]
  intro t _
  exact Tile.spells_write t

theorem ofText_text (a : Address) : ofText a.text = .ok a := ofText_eq_ok_iff.2 a.spells_text

/-- **What is written of an address reads back.** Tiles are written as plain decimal numbers with a
comma between two of them, and from this text they are read in the same order. So a text that is
read has a written form that is read as the same address, and texts of one address are those of one
written form. -/
theorem text_normalizes :
    (∀ ts : List Tile, ts ≠ [] → ∃ a, ofTiles ts = .ok a ∧ a.tiles = ts ∧
      Text.Cuts ',' a.text.toList (ts.map fun t => Text.Decimal.write t.toNat) ∧
      ofText a.text = .ok a) ∧
    (∀ text a, ofText text = .ok a → ofText a.text = .ok a) ∧
    ∀ text text' a a', ofText text = .ok a → ofText text' = .ok a' →
      (a = a' ↔ a.text = a'.text) := by
  refine ⟨fun ts hne => ?_, fun text a _ => a.ofText_text, fun text text' a a' _ _ => ?_⟩
  · obtain ⟨t, ts, rfl⟩ := List.exists_cons_of_ne_nil hne
    let a : Address := ⟨t, ts⟩
    exact ⟨a, ofTiles_eq_ok_iff.2 rfl, rfl, a.cuts_text, a.ofText_text⟩
  · exact eq_iff_written_eq ofText_text

/-- The least and the greatest tile, and a tile that comes again: spellings of one address and a
text of another. -/
theorem text_normalizes_spellings :
    let a : Address := ⟨7, [0, 4294967295, 7]⟩
    ([7, 0, 4294967295, 7] : List Tile) ≠ [] ∧ a.text = "7,0,4294967295,7" ∧
    ofText " 7,+000,4294967295\u3000,07" = .ok a ∧ ofText a.text = .ok a ∧
    ofText "7,0" = .ok ⟨7, [0]⟩ ∧ a.text ≠ (Address.mk 7 [0]).text := by
  intro a
  have hspelled : ofText " 7,+000,4294967295\u3000,07" = .ok a := by decide
  have hshort : ofText "7,0" = .ok ⟨7, [0]⟩ := by decide
  obtain ⟨hwritten, hreads, hsame⟩ := text_normalizes
  have hne : a.tiles ≠ [] := by decide
  obtain ⟨b, hb, -, hcuts, -⟩ := hwritten a.tiles hne
  obtain rfl : a = b := Except.ok.inj hb
  have htext : a.text = "7,0,4294967295,7" := by
    rw [← String.toList_inj, ← hcuts.join_eq]
    decide
  refine ⟨hne, htext, hspelled, hreads _ a hspelled, hshort, fun h => ?_⟩
  exact absurd ((hsame _ _ _ _ hspelled hshort).2 h) (by decide)

end Address

end CoverMosaic
