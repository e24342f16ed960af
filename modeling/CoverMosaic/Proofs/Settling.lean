import CoverMosaic.Proofs.Queue
import Mathlib.Data.List.TakeWhile
/-!
# How a cell comes to rest: `fill_cell`

A cell finds its candidate in turns. In a turn it takes the next candidate off the queue and is
settled by it or passes over it, or it finds that none is left and is settled without one. Each turn
brings the end nearer (`Cell.turnsLeft`) and leaves what the cell comes to as it is
(`MissingArt.comesTo`); the two together are the step lemma `turn_spec`. So the turns end from every
state, and they end with what is worked out by recursion on the queue (`rests_unique`,
`exists_rests`).

What that takes off the queue is said without turns: the candidates in front that the policy passes
over, and one more (`settle_eq_ahead`).

| here | there |
| --- | --- |
| `CellState`             | `CellState`: `TryNext`, `Exhausted`, `Resolved` |
| `Cell`                  | the state and the queue at the head of the loop in `fill_cell` |
| `turn`                  | the body of that loop, which goes on or returns |
| `Rests`                 | the loop, with the number of its turns |

Main result `cell_comes_to_rest`.
-/
namespace CoverMosaic

/-! ## Turns -/

/-- How far a cell has come. -/
inductive CellState where
  /-- The next candidate is tried. -/
  | trying
  /-- No candidate is left to try. -/
  | exhausted
  /-- The outcome is known, and which candidate it is from. -/
  | resolved (outcome : Outcome) (candidate : Option Candidate)
  deriving DecidableEq, Repr

/-- A cell that is being filled, and the candidates that are left. -/
structure Cell where
  state : CellState
  queue : List Candidate
  deriving DecidableEq, Repr

/-- A bound on the turns before the one that hands over the outcome. -/
def Cell.turnsLeft (cell : Cell) : Nat :=
  match cell.state with
  | .trying => cell.queue.length + 2
  | .exhausted => 1
  | .resolved _ _ => 0

namespace MissingArt

/-- One turn of a cell, after which it goes on or is settled. -/
def turn (p : MissingArt) (size : Nat) (cell : Cell) : Cell ⊕ Settled :=
  match cell.state with
  | .trying =>
    match cell.queue with
    | [] => .inl ⟨.exhausted, []⟩
    | c :: queue =>
      match p.outcome size c.artwork with
      | .skip => .inl ⟨.trying, queue⟩
      | outcome => .inl ⟨.resolved outcome (some c), queue⟩
  | .exhausted => .inl ⟨.resolved p.fallback none, cell.queue⟩
  | .resolved outcome candidate => .inr ⟨outcome, candidate, cell.queue⟩

/-- The turns of a cell end after so many of them, and so it is settled. -/
inductive Rests (p : MissingArt) (size : Nat) : Cell → Nat → Settled → Prop where
  | handOver {cell : Cell} {s : Settled} (h : p.turn size cell = .inr s) : Rests p size cell 1 s
  | goOn {cell next : Cell} {n : Nat} {s : Settled} (h : p.turn size cell = .inl next)
    (hrests : Rests p size next n s) : Rests p size cell (n + 1) s

/-- What a cell comes to, by recursion on the queue. -/
def comesTo (p : MissingArt) (size : Nat) (cell : Cell) : Settled :=
  match cell.state with
  | .trying => p.settle size cell.queue
  | .exhausted => ⟨p.fallback, none, cell.queue⟩
  | .resolved outcome candidate => ⟨outcome, candidate, cell.queue⟩

variable {p : MissingArt} {size : Nat} {cell : Cell} {n : Nat} {s : Settled}

theorem turn_skip {c : Candidate} {queue : List Candidate}
    (h : p.outcome size c.artwork = .skip) :
    p.turn size ⟨.trying, c :: queue⟩ = .inl ⟨.trying, queue⟩ := by
  simp only [turn, h]

theorem turn_take {c : Candidate} {queue : List Candidate}
    (h : p.outcome size c.artwork ≠ .skip) :
    p.turn size ⟨.trying, c :: queue⟩ =
      .inl ⟨.resolved (p.outcome size c.artwork) (some c), queue⟩ := by
  -- `h` rules out the branch of a candidate that is passed over
  simp only [turn]

/-- **One turn** is one less to go and changes nothing about what the cell comes to. -/
theorem turn_spec (p : MissingArt) (size : Nat) (cell : Cell) :
    match p.turn size cell with
    | .inl next => next.turnsLeft < cell.turnsLeft ∧ p.comesTo size next = p.comesTo size cell
    | .inr s => p.comesTo size cell = s := by
  obtain ⟨state, queue⟩ := cell
  cases state with
  | trying =>
    cases queue with
    | nil => exact ⟨by decide, rfl⟩
    | cons c queue =>
      by_cases h : p.outcome size c.artwork = .skip
      · rw [turn_skip h]
        refine ⟨by simp [Cell.turnsLeft], ?_⟩
        simp only [comesTo, settle_skip h]
      · rw [turn_take h]
        refine ⟨by simp [Cell.turnsLeft], ?_⟩
        simp only [comesTo, settle_take h]
  | exhausted => exact ⟨Nat.zero_lt_one, rfl⟩
  | resolved outcome candidate => rfl

theorem rests_unique (h : Rests p size cell n s) : s = p.comesTo size cell := by
  induction h with
  | @handOver cell s h =>
    have hspec := turn_spec p size cell
    rw [h] at hspec
    exact hspec.symm
  | @goOn cell next n s h _ ih =>
    have hspec := turn_spec p size cell
    rw [h] at hspec
    exact ih.trans hspec.2

/-- **All turns.** They end from every state, also from those that no cell ever gets into. -/
theorem exists_rests (p : MissingArt) (size : Nat) (cell : Cell) :
    ∃ n ≤ cell.turnsLeft + 1, Rests p size cell n (p.comesTo size cell) := by
  have hspec := turn_spec p size cell
  cases h : p.turn size cell with
  | inl next =>
    rw [h] at hspec
    obtain ⟨hlt, hsame⟩ := hspec
    obtain ⟨n, hn, hrests⟩ := exists_rests p size next
    rw [hsame] at hrests
    exact ⟨n + 1, by omega, .goOn h hrests⟩
  | inr s =>
    rw [h] at hspec
    exact ⟨1, by omega, hspec ▸ .handOver h⟩
termination_by cell.turnsLeft

/-! ## What is taken off the queue -/

/-- The queue from the first candidate on that the policy does not pass over. -/
def ahead (p : MissingArt) (queue : List Candidate) : List Candidate :=
  if p.skip then queue.dropWhile (·.artwork.isNone) else queue

theorem ahead_skip {c : Candidate} (h : p.outcome size c.artwork = .skip)
    (queue : List Candidate) : p.ahead (c :: queue) = p.ahead queue := by
  obtain ⟨hp, hc⟩ := outcome_eq_skip_iff.1 h
  simp [ahead, hp, hc]

theorem ahead_take {c : Candidate} (h : p.outcome size c.artwork ≠ .skip)
    (queue : List Candidate) : p.ahead (c :: queue) = c :: queue := by
  unfold ahead
  by_cases hp : p.skip = true
  · have hc : c.artwork ≠ none := fun hc => h (outcome_eq_skip_iff.2 ⟨hp, hc⟩)
    rw [if_pos hp, List.dropWhile_cons_of_neg (by simpa using hc)]
  · rw [if_neg hp]

theorem ahead_eq_nil_iff {queue : List Candidate} :
    p.ahead queue = [] ↔ queue = [] ∨ p.skip = true ∧ ∀ c ∈ queue, c.artwork = none := by
  unfold ahead
  by_cases hp : p.skip = true
  · rw [if_pos hp, List.dropWhile_eq_nil_iff]
    simp only [Option.isNone_iff_eq_none, hp, true_and]
    constructor
    · exact .inr
    · rintro (rfl | h)
      · simp
      · exact h
  · simp [hp]

theorem settle_eq_ahead (p : MissingArt) (size : Nat) (queue : List Candidate) :
    p.settle size queue =
      match p.ahead queue with
      | [] => ⟨p.fallback, none, []⟩
      | c :: rest => ⟨p.outcome size c.artwork, some c, rest⟩ := by
  induction queue with
  | nil =>
    have hnil : p.ahead [] = [] := ahead_eq_nil_iff.2 (.inl rfl)
    rw [hnil]
    rfl
  | cons c queue ih =>
    by_cases h : p.outcome size c.artwork = .skip
    · rw [settle_skip h, ahead_skip h, ih]
    · rw [settle_take h, ahead_take h]

theorem settle_outcome_ne_skip (p : MissingArt) (size : Nat) (queue : List Candidate) :
    (p.settle size queue).outcome ≠ .skip := by
  induction queue with
  | nil => exact p.fallback_ne_skip
  | cons c queue ih =>
    by_cases h : p.outcome size c.artwork = .skip
    · rwa [settle_skip h]
    · rwa [settle_take h]

/-- **A cell comes to rest** after at most three turns more than there are candidates, in one way
only, and is never passed over itself. Where missing artwork is passed over, it takes the
candidates without artwork in front of the queue and the one behind them; where it is not, it takes
the first one; the others stay as they are. It is without a candidate if and only if none in the
queue could settle it, and then its outcome is that of missing artwork. -/
theorem cell_comes_to_rest (p : MissingArt) (size : Nat) (queue : List Candidate) :
    (∃ n ≤ queue.length + 3, Rests p size ⟨.trying, queue⟩ n (p.settle size queue)) ∧
    (∀ n s, Rests p size ⟨.trying, queue⟩ n s → s = p.settle size queue) ∧
    (p.settle size queue).outcome ≠ .skip ∧
    (p.skip = true →
      (p.settle size queue).candidate = (queue.dropWhile (·.artwork.isNone)).head? ∧
      (p.settle size queue).rest = (queue.dropWhile (·.artwork.isNone)).tail) ∧
    (p.skip = false →
      (p.settle size queue).candidate = queue.head? ∧ (p.settle size queue).rest = queue.tail) ∧
    ((p.settle size queue).candidate = none ↔
      queue = [] ∨ p.skip = true ∧ ∀ c ∈ queue, c.artwork = none) ∧
    ((p.settle size queue).candidate = none → (p.settle size queue).outcome = p.fallback) := by
  have htaken : (p.settle size queue).candidate = (p.ahead queue).head? ∧
      (p.settle size queue).rest = (p.ahead queue).tail := by
    rw [settle_eq_ahead]
    cases p.ahead queue <;> exact ⟨rfl, rfl⟩
  refine ⟨exists_rests p size ⟨.trying, queue⟩, fun n s => rests_unique,
    settle_outcome_ne_skip p size queue, fun hp => ?_, fun hp => ?_, ?_, ?_⟩
  · simpa only [ahead, hp, if_true] using htaken
  · simpa [ahead, hp] using htaken
  · rw [htaken.1, List.head?_eq_none_iff, ahead_eq_nil_iff]
  · rw [settle_eq_ahead]
    cases p.ahead queue with
    | nil => intro _; rfl
    | cons c rest => intro h; cases h

/-- Artwork between two candidates without it, under both policies. -/
theorem cell_comes_to_rest_between :
    ∃ queue : List Candidate, queue.map (·.artwork.isSome) = [false, true, false] ∧
      (∃ n ≤ 6, Rests ⟨true, true⟩ 250 ⟨.trying, queue⟩ n (settle ⟨true, true⟩ 250 queue)) ∧
      (settle ⟨true, true⟩ 250 queue).candidate = queue[1]? ∧
      (settle ⟨true, true⟩ 250 queue).rest = queue.drop 2 ∧
      (settle ⟨false, true⟩ 250 queue).candidate = queue[0]? ∧
      (settle ⟨false, true⟩ 250 queue).rest = queue.drop 1 := by
  let queue : List Candidate :=
    [⟨⟨"a", "A", "x"⟩, none⟩, ⟨⟨"b", "B", "y"⟩, some ⟨7, "r"⟩⟩, ⟨⟨"c", "C", "z"⟩, none⟩]
  obtain ⟨hrests, -, -, hpassing, -⟩ := cell_comes_to_rest ⟨true, true⟩ 250 queue
  obtain ⟨hcandidate, hrest⟩ := hpassing rfl
  obtain ⟨-, -, -, -, htaking, -⟩ := cell_comes_to_rest ⟨false, true⟩ 250 queue
  exact ⟨queue, rfl, hrests, hcandidate, hrest, htaking rfl⟩

end MissingArt

end CoverMosaic
