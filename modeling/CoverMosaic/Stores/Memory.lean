import CoverMosaic.Listening.Ranking
/-!
# Stores and inquiries

Three stores are asked: one knows the users, one their rankings, one the artwork of releases. A
store answers each question as it likes or fails with a message of its own. Nothing is said of how
they come by their answers. An inquiry is a computation that asks stores. It keeps the calls that
were made, in order, beside its result, and ends at the first error. Inquiries form a lawful monad.

Stores in memory are all three stores as one value that a caller can change between two covers. Each
of them can be made to fail with a message, and the artwork store to answer with all that it has.

| here | there |
| --- | --- |
| `Stores`                    | `UserStore`, `StatsStore` and `ArtworkLookup` |
| `Call`, `Call.operation`    | a call of `user_id_by_name`, `get_stats` or `lookup_artwork`, and its name |
| `Inquiry.ask`, `.require`   | `store_context`, and the error for what is missing |
-/
namespace CoverMosaic

/-! ## Stores -/

/-- What a user is known by inside the stores. -/
abbrev UserId := Int

/-- How the three stores answer. -/
structure Stores where
  /-- The user of a name, if there is one. -/
  userByName : String → Except String (Option UserId)
  /-- The ranking of a user, if it has been worked out. -/
  ranking : UserId → Entity → Period → Except String (Option Ranking)
  /-- What is known of each release, for a set of releases in ascending order. -/
  artwork : List String → Except String (String → Option ReleaseInfo)

/-- A question put to a store. -/
inductive Call where
  | userByName (name : String)
  | ranking (user : UserId) (entity : Entity) (period : Period)
  | artwork (releases : List String)
  deriving DecidableEq, Repr

/-- The name of a question in error messages. -/
def Call.operation : Call → String
  | userByName _ => "user_id_by_name"
  | ranking .. => "get_stats"
  | artwork _ => "lookup_artwork"

/-! ## Inquiries -/

/-- The calls that a computation made and how it ended. -/
structure Inquiry (α : Type) where
  calls : List Call
  result : Except CoverError α

namespace Inquiry

/-- Goes on from a result; after an error nothing more is asked. -/
def andThen {α β : Type} (q : Inquiry α) (next : α → Inquiry β) : Inquiry β :=
  match q.result with
  | .ok a => ⟨q.calls ++ (next a).calls, (next a).result⟩
  | .error e => ⟨q.calls, .error e⟩

instance : Monad Inquiry where
  pure a := ⟨[], .ok a⟩
  bind := andThen

/-- A result for which no store is asked. -/
def ofExcept {α : Type} (result : Except CoverError α) : Inquiry α := ⟨[], result⟩

/-- Asks a store once; its own message is kept as the source of the error. -/
def ask {α : Type} (call : Call) (answer : Except String α) : Inquiry α :=
  ⟨[call], answer.mapError (.storeFailed call.operation)⟩

/-- The value of an answer, or an error where it has none. -/
def require {α : Type} (error : CoverError) : Option α → Inquiry α
  | some a => ⟨[], .ok a⟩
  | none => ⟨[], .error error⟩

theorem pure_andThen {α β : Type} (a : α) (next : α → Inquiry β) :
    (pure a : Inquiry α) >>= next = next a := rfl

theorem andThen_assoc {α β γ : Type} (q : Inquiry α) (f : α → Inquiry β) (g : β → Inquiry γ) :
    (q >>= f) >>= g = q >>= fun a => f a >>= g := by
  obtain ⟨calls, result⟩ := q
  cases result with
  | error e => rfl
  | ok a =>
    show andThen (andThen ⟨calls, .ok a⟩ f) g = andThen ⟨calls, .ok a⟩ fun a => andThen (f a) g
    simp only [andThen]
    cases (f a).result <;> simp

theorem andThen_pure {α : Type} (q : Inquiry α) : q >>= pure = q := by
  obtain ⟨calls, result⟩ := q
  cases result with
  | error e => rfl
  | ok a => show Inquiry.mk (calls ++ []) (.ok a) = _; rw [List.append_nil]

instance : LawfulMonad Inquiry := LawfulMonad.mk' Inquiry andThen_pure pure_andThen andThen_assoc

end Inquiry

/-! ## Stores in memory -/

/-- The contents of the three stores, each an association list. -/
structure Memory where
  users : List (String × UserId) := []
  rankings : List ((UserId × Entity × Period) × Ranking) := []
  artwork : List (String × ReleaseInfo) := []
  /-- Whether the artwork store answers with releases that were not asked for. -/
  answersAll : Bool := false
  userFailure : Option String := none
  rankingFailure : Option String := none
  artworkFailure : Option String := none

namespace Memory

/-- An association list without its entries for a key. -/
def forget {κ α : Type} [DecidableEq κ] (key : κ) (entries : List (κ × α)) : List (κ × α) :=
  entries.filter (·.1 ≠ key)

/-- An association list with a new value for a key. -/
def assign {κ α : Type} [DecidableEq κ] (key : κ) (value : α) (entries : List (κ × α)) :
    List (κ × α) :=
  (key, value) :: forget key entries

/-- Answers, unless the store has been made to fail. -/
def unlessFailing {α : Type} (failure : Option String) (answer : α) : Except String α :=
  match failure with
  | some message => .error message
  | none => .ok answer

/-- The stores that answer from memory. -/
def stores (m : Memory) : Stores where
  userByName name := unlessFailing m.userFailure (m.users.lookup name)
  ranking user entity period :=
    unlessFailing m.rankingFailure (m.rankings.lookup (user, entity, period))
  artwork releases := unlessFailing m.artworkFailure fun release =>
    if m.answersAll ∨ release ∈ releases then m.artwork.lookup release else none

theorem lookup_assign {κ α : Type} [DecidableEq κ] (key : κ) (value : α)
    (entries : List (κ × α)) : (assign key value entries).lookup key = some value := by
  simp [assign]

theorem lookup_forget {κ α : Type} [DecidableEq κ] (key : κ) (entries : List (κ × α)) :
    (forget key entries).lookup key = none := by
  refine List.lookup_eq_none_iff.2 fun entry h => ?_
  have hne : entry.1 ≠ key := by simpa using (List.mem_filter.1 h).2
  exact bne_iff_ne.2 (Ne.symm hne)

end Memory

end CoverMosaic
