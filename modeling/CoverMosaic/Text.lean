/-!
# Texts

What the readers and writers of addresses, colours and numbers are made of.

* Blanks are the characters with the Unicode property White_Space, twenty-five code points in ten
  ranges. `framed_trim` says that `trim` takes off nothing but blanks, and `trim_of_framed` that a
  text without blanks is all that is left where blanks stand around it.
* A text is cut at every occurrence of a separator, so it always has at least one field.
  `join_fields` says that nothing but the separators is lost, and `fields_join` that no other fields
  have been put together in the same way.
* Decimal numbers are read with one plus sign and leading zeros or without, and written with
  neither; bytes are read in base sixteen in either case, with a plus sign allowed in place of the
  first digit, and written in upper case. What is written reads back (`Decimal.read?_write`,
  `Hex.byte?_write`).
* A set of strings is kept as an ascending list, in the order of code points, which is that of the
  UTF-8 bytes too. A set has one such list (`mem_ascending`, `ascending_pairwise`).
-/
namespace CoverMosaic.Text

/-! ## Blanks -/

/-- Closed ranges of the code points that have the property White_Space. -/
def blankRanges : List (Nat × Nat) :=
  [(0x09, 0x0D), (0x20, 0x20), (0x85, 0x85), (0xA0, 0xA0), (0x1680, 0x1680), (0x2000, 0x200A),
   (0x2028, 0x2029), (0x202F, 0x202F), (0x205F, 0x205F), (0x3000, 0x3000)]

/-- A character is blank when one of the ranges holds its code point. -/
def isBlank (c : Char) : Bool :=
  blankRanges.any fun (low, high) => low ≤ c.toNat && c.toNat ≤ high

/-- The ranges hold twenty-five code points. -/
example : blankRanges.foldl (fun n (low, high) => n + (high + 1 - low)) 0 = 25 := by decide

/-- Removes the blanks at both ends; blanks inside stay. -/
def trim (cs : List Char) : List Char :=
  ((cs.dropWhile isBlank).reverse.dropWhile isBlank).reverse

theorem isBlank_of_isWhitespace {c : Char} (h : c.isWhitespace = true) : isBlank c = true := by
  simp only [Char.isWhitespace, Bool.or_eq_true, decide_eq_true_eq] at h
  rcases h with ((rfl | rfl) | rfl) | rfl <;> decide

theorem dropWhile_isBlank_eq_self {cs : List Char} (h : ∀ c ∈ cs, isBlank c = false) :
    cs.dropWhile isBlank = cs := by
  cases cs with
  | nil => rfl
  | cons c cs => simp [List.dropWhile, h c (by simp)]

/-- A text with blanks around it, or none. -/
def Framed (core cs : List Char) : Prop :=
  ∃ before after, cs = before ++ core ++ after ∧ (∀ c ∈ before, isBlank c = true) ∧
    ∀ c ∈ after, isBlank c = true

theorem framed_self (cs : List Char) : Framed cs cs := ⟨[], [], by simp, by simp, by simp⟩

theorem framed_trim (cs : List Char) : Framed (trim cs) cs := by
  have hblank (ds : List Char) : ∀ c ∈ ds.takeWhile isBlank, isBlank c = true :=
    List.all_eq_true.1 List.all_takeWhile
  refine ⟨cs.takeWhile isBlank, ((cs.dropWhile isBlank).reverse.takeWhile isBlank).reverse,
    ?_, hblank cs, ?_⟩
  · rw [trim, List.append_assoc, ← List.reverse_append, List.takeWhile_append_dropWhile,
      List.reverse_reverse, List.takeWhile_append_dropWhile]
  · intro c hc
    exact hblank _ c (List.mem_reverse.1 hc)

theorem trim_of_framed {core cs : List Char} (h : Framed core cs)
    (hcore : ∀ c ∈ core, isBlank c = false) : trim cs = core := by
  obtain ⟨before, after, rfl, hbefore, hafter⟩ := h
  have hend : ((core ++ after).reverse.dropWhile isBlank).reverse = core := by
    have hafter' : ∀ c ∈ after.reverse, isBlank c = true := by simpa using hafter
    have hcore' : ∀ c ∈ core.reverse, isBlank c = false := by simpa using hcore
    rw [List.reverse_append, List.dropWhile_append_of_pos hafter',
      dropWhile_isBlank_eq_self hcore', List.reverse_reverse]
  rw [trim, List.append_assoc, List.dropWhile_append_of_pos hbefore]
  cases core with
  | nil =>
    -- without a core the blanks behind it go with those in front
    have hnone : after.dropWhile isBlank = [] := by
      simpa using @List.dropWhile_append_of_pos _ isBlank after [] hafter
    simp [hnone]
  | cons c core =>
    have hc : ¬ isBlank c = true := by simpa using hcore c List.mem_cons_self
    rw [List.cons_append, List.dropWhile_cons_of_neg hc]
    exact hend

/-! ## Separated fields -/

/-- The fields of a text, cut at every `sep`. -/
def fields (sep : Char) : List Char → List (List Char)
  | [] => [[]]
  | c :: cs =>
    if c = sep then [] :: fields sep cs
    else match fields sep cs with
      | [] => [[c]]
      | f :: fs => (c :: f) :: fs

/-- Fields written one after another with `sep` between two of them. -/
def join (sep : Char) : List (List Char) → List Char
  | [] => []
  | [f] => f
  | f :: g :: fs => f ++ sep :: join sep (g :: fs)

theorem fields_ne_nil (sep : Char) (cs : List Char) : fields sep cs ≠ [] := by
  cases cs with
  | nil => simp [fields]
  | cons c cs =>
    rw [fields]
    split
    · simp
    · split <;> simp

theorem join_cons (sep : Char) (f : List Char) {fs : List (List Char)} (h : fs ≠ []) :
    join sep (f :: fs) = f ++ sep :: join sep fs := by
  cases fs with
  | nil => exact absurd rfl h
  | cons g gs => rfl

theorem join_cons_cons (sep c : Char) (f : List Char) (fs : List (List Char)) :
    join sep ((c :: f) :: fs) = c :: join sep (f :: fs) := by
  cases fs <;> rfl

theorem join_fields (sep : Char) (cs : List Char) : join sep (fields sep cs) = cs := by
  induction cs with
  | nil => rfl
  | cons c cs ih =>
    rw [fields]
    split
    · rename_i h; rw [join_cons sep [] (fields_ne_nil sep cs), ih, h]; rfl
    · split
      · rename_i h; exact absurd h (fields_ne_nil sep cs)
      · rename_i f fs h; rw [join_cons_cons, ← h, ih]

theorem not_mem_of_mem_fields {sep : Char} {cs f : List Char} (h : f ∈ fields sep cs) :
    sep ∉ f := by
  induction cs generalizing f with
  | nil => simp [fields] at h; simp [h]
  | cons c cs ih =>
    rw [fields] at h
    split at h
    · rcases List.mem_cons.1 h with rfl | h
      · simp
      · exact ih h
    · rename_i hc
      split at h
      · rename_i hn; exact absurd hn (fields_ne_nil sep cs)
      · rename_i g gs hg
        rcases List.mem_cons.1 h with rfl | h
        · have := ih (f := g) (by simp [hg])
          simp [this, Ne.symm hc]
        · exact ih (by simp [hg, h])

theorem fields_eq_singleton {sep : Char} {f : List Char} (h : sep ∉ f) : fields sep f = [f] := by
  induction f with
  | nil => rfl
  | cons c f ih =>
    obtain ⟨hc, hf⟩ := not_or.1 (mt List.mem_cons.2 h)
    rw [fields, if_neg (Ne.symm hc), ih hf]

theorem fields_append {sep : Char} {f : List Char} (h : sep ∉ f) (cs : List Char) :
    fields sep (f ++ sep :: cs) = f :: fields sep cs := by
  induction f with
  | nil => simp [fields]
  | cons c f ih =>
    obtain ⟨hc, hf⟩ := not_or.1 (mt List.mem_cons.2 h)
    rw [List.cons_append, fields, if_neg (Ne.symm hc), ih hf]

theorem fields_join {sep : Char} {fs : List (List Char)} (hne : fs ≠ []) (h : ∀ f ∈ fs, sep ∉ f) :
    fields sep (join sep fs) = fs := by
  induction fs with
  | nil => exact absurd rfl hne
  | cons f fs ih =>
    obtain ⟨hf, hfs⟩ := List.forall_mem_cons.1 h
    cases fs with
    | nil => exact fields_eq_singleton hf
    | cons g gs => rw [join, fields_append hf, ih (by simp) hfs]

/-! ## Decimal numbers -/

namespace Decimal

/-- The text after one leading plus sign, if there is one. -/
def dropPlus : List Char → List Char
  | '+' :: cs => cs
  | cs => cs

/-- One or more decimal digits. -/
def isNumeral (cs : List Char) : Bool := !cs.isEmpty && cs.all Char.isDigit

/-- Reads an optional plus sign and one or more digits, and nothing else. -/
def read? (cs : List Char) : Option Nat :=
  let digits := dropPlus cs
  if isNumeral digits then some (Nat.ofDigitChars 10 digits 0) else none

/-- The digits of a number, most significant first, without leading zeros. -/
def write (n : Nat) : List Char := Nat.toDigits 10 n

/-- The written number as a string. -/
def text (n : Nat) : String := String.ofList (write n)

/-- The number with zeros in front up to the given width. -/
def padded (width n : Nat) : List Char :=
  List.replicate (width - (write n).length) '0' ++ write n

theorem isDigit_of_mem_write {n : Nat} {c : Char} (h : c ∈ write n) : c.isDigit = true :=
  Nat.isDigit_of_mem_toDigits (by decide) (by decide) h

theorem not_mem_write {n : Nat} {c : Char} (h : c.isDigit = false) : c ∉ write n := by
  intro hc
  rw [isDigit_of_mem_write hc] at h
  cases h

theorem isNumeral_iff {cs : List Char} :
    isNumeral cs = true ↔ cs ≠ [] ∧ ∀ c ∈ cs, c.isDigit = true := by
  simp [isNumeral]

theorem isNumeral_write (n : Nat) : isNumeral (write n) = true := by
  have hne : write n ≠ [] := Nat.toDigits_ne_nil
  exact isNumeral_iff.2 ⟨hne, fun c hc => isDigit_of_mem_write hc⟩

theorem dropPlus_eq_self {cs : List Char} (h : isNumeral cs = true) : dropPlus cs = cs := by
  unfold dropPlus
  split
  · simp [isNumeral] at h
  · rfl

theorem read?_write (n : Nat) : read? (write n) = some n := by
  have h := isNumeral_write n
  rw [read?, dropPlus_eq_self h, if_pos h]
  exact congrArg some (Nat.ofDigitChars_toDigits (by decide) (by decide))

theorem write_injective {m n : Nat} (h : write m = write n) : m = n := by
  have hread := congrArg read? h
  rw [read?_write, read?_write] at hread
  exact Option.some.inj hread

end Decimal

/-! ## Bytes in base sixteen -/

namespace Hex

/-- The value of a digit of either case. -/
def digit? (c : Char) : Option Nat :=
  if '0' ≤ c ∧ c ≤ '9' then some (c.toNat - '0'.toNat)
  else if 'a' ≤ c ∧ c ≤ 'f' then some (c.toNat - 'a'.toNat + 10)
  else if 'A' ≤ c ∧ c ≤ 'F' then some (c.toNat - 'A'.toNat + 10)
  else none

/-- Reads two digits, or a plus sign and one digit. -/
def byte? (high low : Char) : Option UInt8 :=
  if high = '+' then (digit? low).map UInt8.ofNat
  else do
    let h ← digit? high
    let l ← digit? low
    return UInt8.ofNat (16 * h + l)

/-- The upper-case digit of a value below sixteen. -/
def upper (n : Nat) : Char := (Nat.digitChar n).toUpper

/-- Two upper-case digits, the more significant one first. -/
def write (b : UInt8) : List Char := [upper (b.toNat / 16), upper (b.toNat % 16)]

theorem upper_ne_plus : ∀ n < 16, upper n ≠ '+' := by decide

theorem digit?_upper : ∀ n < 16, digit? (upper n) = some n := by decide

theorem byte?_write (b : UInt8) :
    byte? (upper (b.toNat / 16)) (upper (b.toNat % 16)) = some b := by
  have hb : b.toNat < 256 := b.toNat_lt
  have hh : b.toNat / 16 < 16 := by omega
  have hl : b.toNat % 16 < 16 := by omega
  rw [byte?, if_neg (upper_ne_plus _ hh), digit?_upper _ hh, digit?_upper _ hl]
  show some (UInt8.ofNat (16 * (b.toNat / 16) + b.toNat % 16)) = some b
  rw [Nat.div_add_mod, UInt8.ofNat_toNat]

end Hex

/-! ## Ascending lists -/

/-- Puts a string in its place in an ascending list, unless it is there already. -/
def insertAscending (s : String) : List String → List String
  | [] => [s]
  | t :: ts =>
    if s < t then s :: t :: ts
    else if s = t then t :: ts
    else t :: insertAscending s ts

/-- The members of a list, each once and in ascending order. -/
def ascending (ss : List String) : List String := ss.foldr insertAscending []

theorem mem_insertAscending {s x : String} {ts : List String} :
    x ∈ insertAscending s ts ↔ x = s ∨ x ∈ ts := by
  induction ts with
  | nil => simp [insertAscending]
  | cons t ts ih =>
    rw [insertAscending]
    split
    · simp
    · split
      · rename_i h; simp [h]
      · simp only [List.mem_cons, ih]
        constructor <;> rintro (h | h | h) <;> simp [h]

theorem mem_ascending {x : String} {ss : List String} : x ∈ ascending ss ↔ x ∈ ss := by
  induction ss with
  | nil => simp [ascending]
  | cons s ss ih => rw [ascending, List.foldr_cons, mem_insertAscending]; simp [← ih, ascending]

theorem insertAscending_pairwise {s : String} {ts : List String} (h : ts.Pairwise (· < ·)) :
    (insertAscending s ts).Pairwise (· < ·) := by
  induction ts with
  | nil => simp [insertAscending]
  | cons t ts ih =>
    obtain ⟨ht, hts⟩ := List.pairwise_cons.1 h
    rw [insertAscending]
    split
    · rename_i hst
      refine List.pairwise_cons.2 ⟨fun x hx => ?_, h⟩
      rcases List.mem_cons.1 hx with rfl | hx
      · exact hst
      · exact String.lt_trans hst (ht x hx)
    · rename_i hst
      split
      · exact h
      · rename_i hne
        refine List.pairwise_cons.2 ⟨fun x hx => ?_, ih hts⟩
        rcases mem_insertAscending.1 hx with rfl | hx
        · exact Std.lt_of_le_of_ne (String.not_lt.1 hst) (Ne.symm hne)
        · exact ht x hx

theorem ascending_pairwise (ss : List String) : (ascending ss).Pairwise (· < ·) := by
  induction ss with
  | nil => exact List.Pairwise.nil
  | cons s ss ih => exact insertAscending_pairwise ih

end CoverMosaic.Text
