import CoverMosaic.Proofs.Stages
import CoverMosaic.Stores.Memory
/-!
# What a request depends on: `fetch_user_stats` and the three covers

A request depends on little of what the stores hold: on the answers to its own questions, and of
those only on the first hundred entries of a ranking and on what is known of the releases asked
for (`Stores.AnswerAlike`).

Two inquiries keep step while the questions of the one are answered alike: then the other puts the
same questions and ends alike (`Inquiry.KeepsStep`). Sequencing keeps this (`KeepsStep.bind`), so
that it holds of a request if it holds of its parts (`put_keepsStep`).

Main result `put_eq_of_answerAlike`.
-/
namespace CoverMosaic

/-! ## Answers -/

/-- Two results that are the same error or related values. -/
inductive Alike {ε α β : Type} (R : α → β → Prop) : Except ε α → Except ε β → Prop
  | failed (e : ε) : Alike R (.error e) (.error e)
  | answered {a : α} {b : β} (h : R a b) : Alike R (.ok a) (.ok b)

namespace Alike

variable {ε ε' α β : Type} {R : α → β → Prop}

theorem refl (x : Except ε α) : Alike (· = ·) x x := by
  cases x with
  | error e => exact .failed e
  | ok a => exact .answered rfl

theorem eq {x y : Except ε α} (h : Alike (· = ·) x y) : x = y := by
  cases h with
  | failed e => rfl
  | answered h => rw [h]

theorem mapError {x : Except ε α} {y : Except ε β} (h : Alike R x y) (f : ε → ε') :
    Alike R (x.mapError f) (y.mapError f) := by
  cases h with
  | failed e => exact .failed (f e)
  | answered h => exact .answered h

end Alike

/-- Two stores answer a question so that no request can tell the answers apart: the same of a user
name, the same ranking but for entries after the first hundred, the same artwork of the releases
that are asked for, whatever of others; or they fail with the same message. -/
def Stores.AnswerAlike (s t : Stores) : Call → Prop
  | .userByName name => s.userByName name = t.userByName name
  | .ranking user entity period =>
    Alike (fun found found' => found.map Ranking.top = found'.map Ranking.top)
      (s.ranking user entity period) (t.ranking user entity period)
  | .artwork releases =>
    Alike (fun known known' => ∀ id ∈ releases, known id = known' id)
      (s.artwork releases) (t.artwork releases)

/-! ## Inquiries that keep step -/

namespace Inquiry

variable {α β γ δ : Type} {same : Call → Prop} {R : α → β → Prop} {S : γ → δ → Prop}

/-- While every question of the first inquiry is answered the same, the second puts the same
questions, and both end with the same error or with related values. -/
def KeepsStep (same : Call → Prop) (R : α → β → Prop) (q : Inquiry α) (q' : Inquiry β) : Prop :=
  (∀ call ∈ q.calls, same call) → q.calls = q'.calls ∧ Alike R q.result q'.result

namespace KeepsStep

theorem refl (q : Inquiry α) : KeepsStep same (· = ·) q q :=
  fun _ => ⟨rfl, .refl q.result⟩

theorem eq {q q' : Inquiry α} (h : KeepsStep same (· = ·) q q')
    (hsame : ∀ call ∈ q.calls, same call) : q = q' := by
  obtain ⟨calls, result⟩ := q
  obtain ⟨hcalls, hresult⟩ := h hsame
  obtain rfl : calls = q'.calls := hcalls
  obtain rfl : result = q'.result := hresult.eq
  rfl

theorem bind {q : Inquiry α} {q' : Inquiry β} (hq : KeepsStep same R q q')
    {f : α → Inquiry γ} {g : β → Inquiry δ}
    (hf : ∀ a b, R a b → KeepsStep same S (f a) (g b)) :
    KeepsStep same S (q >>= f) (q' >>= g) := by
  intro hsame
  obtain ⟨calls, result⟩ := q
  obtain ⟨calls', result'⟩ := q'
  cases result with
  | error e =>
    obtain ⟨rfl, hresult⟩ := hq hsame
    cases hresult
    exact ⟨rfl, .failed e⟩
  | ok a =>
    -- the questions of the first part come before those of what follows
    obtain ⟨hbefore, hafter⟩ := List.forall_mem_append.1 hsame
    obtain ⟨rfl, hresult⟩ := hq hbefore
    cases hresult with
    | answered hab =>
      obtain ⟨hcalls, hend⟩ := hf a _ hab hafter
      exact ⟨congrArg (calls ++ ·) hcalls, hend⟩

/-- Both go on from the same value. -/
theorem bind_same {q q' : Inquiry α} (hq : KeepsStep same (· = ·) q q')
    {f : α → Inquiry γ} {g : α → Inquiry δ} (hf : ∀ a, KeepsStep same S (f a) (g a)) :
    KeepsStep same S (q >>= f) (q' >>= g) := by
  refine hq.bind ?_
  rintro a _ rfl
  exact hf a

end KeepsStep

theorem ask_keepsStep {call : Call} {answer : Except String α} {answer' : Except String β}
    (h : same call → Alike R answer answer') :
    KeepsStep same R (ask call answer) (ask call answer') :=
  fun hsame => ⟨rfl, (h (hsame call (List.mem_singleton_self call))).mapError _⟩

/-- Values with the same image under a function are missing together. -/
theorem require_keepsStep {f : α → γ} {e : CoverError} {found found' : Option α}
    (h : found.map f = found'.map f) :
    KeepsStep same (fun a a' => f a = f a') (require e found) (require e found') := by
  intro _
  cases found with
  | none =>
    cases found' with
    | none => exact ⟨rfl, .failed e⟩
    | some a' => cases h
  | some a =>
    cases found' with
    | none => cases h
    | some a' => exact ⟨rfl, .answered (Option.some.inj h)⟩

end Inquiry

/-! ## Requests -/

open Inquiry (KeepsStep ask_keepsStep require_keepsStep)

variable (c : Composer) {s t : Stores}

theorem Stores.topOf_keepsStep (entity : Entity) (user : String) (period : Period) :
    KeepsStep (s.AnswerAlike t) (· = ·) (s.topOf entity user period)
      (t.topOf entity user period) := by
  refine .bind_same (ask_keepsStep fun h => ?_) fun found => ?_
  · rw [show s.userByName user = t.userByName user from h]
    exact .refl _
  refine .bind_same (.refl _) fun id => ?_
  refine .bind (ask_keepsStep fun h => h) fun found found' hfound => ?_
  refine .bind (require_keepsStep hfound) fun ranking ranking' htop => ?_
  show KeepsStep _ _ (pure ranking.top) (pure ranking'.top)
  rw [htop]
  exact .refl _

namespace Composer

theorem candidates_congr {known known' : String → Option ReleaseInfo} {releases : List String}
    (h : ∀ id ∈ requested releases, known id = known' id) :
    candidates known releases = candidates known' releases := by
  refine List.filterMap_congr fun id hid => ?_
  rw [h id (Text.mem_ascending.2 hid)]

theorem composeReleases_keepsStep (releases : List String) (layout : Layout) (size : Nat) :
    KeepsStep (s.AnswerAlike t) (· = ·) (c.composeReleases s releases layout size)
      (c.composeReleases t releases layout size) := by
  refine .bind (ask_keepsStep fun h => h) fun known known' hknown => ?_
  rw [candidates_congr hknown]
  exact .refl _

end Composer

namespace Request

variable (r : Request)

theorem put_keepsStep : KeepsStep (s.AnswerAlike t) (· = ·) (r.put c s) (r.put c t) := by
  cases r with
  | top entity user period =>
    refine .bind_same (.refl _) fun p => ?_
    refine .bind_same (.refl _) fun e => ?_
    exact Stores.topOf_keepsStep e user p
  | artists user period =>
    refine .bind_same (.refl _) fun p => ?_
    refine .bind_same (Stores.topOf_keepsStep _ user p) fun ranking => ?_
    exact .refl _
  | grid user period number =>
    refine .bind_same (.refl _) fun p => ?_
    refine .bind_same (Stores.topOf_keepsStep _ user p) fun ranking => ?_
    refine .bind_same (c.composeReleases_keepsStep _ _ _) fun images => ?_
    exact .refl _
  | releases user period =>
    refine .bind_same (.refl _) fun p => ?_
    refine .bind_same (Stores.topOf_keepsStep _ user p) fun ranking => ?_
    refine .bind_same (c.composeReleases_keepsStep _ _ _) fun images => ?_
    exact .refl _

/-- **A request depends on nothing else in the stores.** Stores that answer its questions alike
are asked the same and give it the same result, whatever they hold of other users, of other
rankings, after the first hundred entries, and of releases that are not asked for. -/
theorem put_eq_of_answerAlike (h : ∀ call ∈ (r.put c s).calls, s.AnswerAlike t call) :
    r.put c s = r.put c t :=
  (r.put_keepsStep c).eq h

/-- The rankings differ after the first hundred entries, and one artwork store also answers with a
release that was not asked for. -/
theorem put_eq_of_answerAlike_tail :
    ∃ (c : Composer) (s t : Stores) (cover : ReleaseCover),
      s.ranking 7 .releases .week ≠ t.ranking 7 .releases .week ∧
      (∀ call ∈ ((releases "rob" "week").put c s).calls, s.AnswerAlike t call) ∧
      ((releases "rob" "week").put c s).result = .ok cover ∧ cover.images ≠ [] ∧
      (releases "rob" "week").put c s = (releases "rob" "week").put c t := by
  let c : Composer := ⟨⟨2, 128, "white", true, false⟩, .white, by decide⟩
  let top : List Entry := .release ⟨some "r", "R", "A", [], 9⟩ ::
    List.replicate 99 (.artist ⟨none, "A", 5⟩)
  let artwork : List (String × ReleaseInfo) := [("r", ⟨"R", "A", some 3, some "r"⟩)]
  let m : Memory := {
    users := [("rob", 7)]
    rankings := [((7, .releases, .week), ⟨top, 200⟩)]
    artwork := artwork }
  let m' : Memory := {
    users := [("ann", 8), ("rob", 7)]
    rankings := [((7, .releases, .week), ⟨top ++ [.release ⟨some "u", "U", "B", [], 1⟩], 200⟩)]
    artwork := ("u", ⟨"U", "B", some 4, some "u"⟩) :: artwork
    answersAll := true }
  have hcalls : ((releases "rob" "week").put c m.stores).calls =
      [.userByName "rob", .ranking 7 .releases .week, .artwork ["r"]] := rfl
  have hsame : ∀ call ∈ ((releases "rob" "week").put c m.stores).calls,
      m.stores.AnswerAlike m'.stores call := by
    rw [hcalls]
    simp only [List.forall_mem_cons, List.not_mem_nil, false_implies, implies_true, and_true]
    refine ⟨rfl, .answered rfl, .answered fun id hid => ?_⟩
    obtain rfl : id = "r" := List.mem_singleton.1 hid
    rfl
  have hcover : ∃ cover : ReleaseCover, ((releases "rob" "week").put c m.stores).result =
      .ok cover ∧ cover.images ≠ [] := ⟨_, rfl, by decide⟩
  obtain ⟨cover, hresult, himages⟩ := hcover
  refine ⟨c, m.stores, m'.stores, cover, ?_, hsame, hresult, himages,
    put_eq_of_answerAlike c (releases "rob" "week") hsame⟩
  intro heq
  have hlength := congrArg (fun ranking => ranking.entries.length)
    (Option.some.inj (Except.ok.inj heq))
  exact absurd hlength (by decide)

end Request

end CoverMosaic
