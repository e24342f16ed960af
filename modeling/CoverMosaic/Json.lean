/-!
# JSON values and rows

A row is a fixed list of columns. As an object it names its columns, in any order and among others;
as an array it lists them all in their order. A column reader is given the value of its column, or
`none` for a column that an object leaves out; `null` is a value like any other.
-/
namespace CoverMosaic

/-- A JSON value; integers are kept apart from all other numbers. -/
inductive Json where
  | null
  | bool (b : Bool)
  | int (n : Int)
  /-- A number with a fraction or an exponent, as it was written. -/
  | real (numeral : String)
  | str (s : String)
  | arr (items : List Json)
  | obj (fields : List (String × Json))
  deriving Repr, Inhabited

namespace Json

/-- The value of a field; of two fields of one name the later one counts. -/
def field? (name : String) : List (String × Json) → Option Json
  | [] => none
  | (key, value) :: rest => match field? name rest with
    | some later => some later
    | none => if key = name then some value else none

/-- The columns of a row, from an object by name or from an array by position. -/
def columns? (names : List String) : Json → Option (List (Option Json))
  | obj fields => some (names.map fun name => field? name fields)
  | arr items => if items.length = names.length then some (items.map some) else none
  | _ => none

/-! ## Column readers -/

/-- Reads a string. -/
def string? : Option Json → Option String
  | some (str s) => some s
  | _ => none

/-- Reads an integer that fits into an unsigned word of sixty-four bits. -/
def word? : Option Json → Option UInt64
  | some (int n) => if 0 ≤ n ∧ n.toNat < UInt64.size then some (UInt64.ofNat n.toNat) else none
  | _ => none

/-- Reads an array of strings. -/
def strings? : Option Json → Option (List String)
  | some (arr items) => items.mapM fun item => string? (some item)
  | _ => none

/-- A column that may be left out or null. -/
def nullable {α : Type} (read? : Option Json → Option α) : Option Json → Option (Option α)
  | none | some null => some none
  | column => (read? column).map some

/-- A column with a value of its own where it is left out; null is not leaving it out. -/
def withDefault {α : Type} (value : α) (read? : Option Json → Option α) :
    Option Json → Option α
  | none => some value
  | column => read? column

/-! ## Written columns -/

/-- The value of a word. -/
def ofWord (n : UInt64) : Json := int n.toNat

/-- The array of some strings. -/
def ofStrings (ss : List String) : Json := arr (ss.map str)

/-- The value, or null where there is none. -/
def ofOption {α : Type} (write : α → Json) : Option α → Json
  | none => null
  | some a => write a

/-! ## What is written reads back -/

theorem string?_str (s : String) : string? (some (str s)) = some s := rfl

theorem word?_ofWord (n : UInt64) : word? (some (ofWord n)) = some n := by
  have hn : (0 : Int) ≤ n.toNat ∧ (n.toNat : Int).toNat < UInt64.size :=
    ⟨Int.natCast_nonneg _, n.toNat_lt_size⟩
  rw [ofWord, word?, if_pos hn, Int.toNat_natCast, UInt64.ofNat_toNat]

theorem strings?_ofStrings (ss : List String) : strings? (some (ofStrings ss)) = some ss := by
  show (ss.map str).mapM (fun item => string? (some item)) = some ss
  induction ss with
  | nil => rfl
  | cons s ss ih => rw [List.map_cons, List.mapM_cons, string?_str, ih]; rfl

theorem nullable_ofOption {α : Type} {read? : Option Json → Option α} {write : α → Json}
    (hnull : ∀ a, write a ≠ null) (hread : ∀ a, read? (some (write a)) = some a) (o : Option α) :
    nullable read? (some (ofOption write o)) = some o := by
  cases o with
  | none => rfl
  | some a =>
    simp only [ofOption]
    unfold nullable
    split
    · simp at *
    · rename_i h; exact absurd (Option.some.inj h) (hnull a)
    · simp [hread]

end Json

end CoverMosaic
