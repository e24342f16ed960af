import CoverMosaic.Cover
import CoverMosaic.Proofs.Composition
/-!
# The stages of a request

A request is answered in stages: its words are read, then the stores are asked one after another,
and every answer is looked at before the next question. `Request.stages` lists them in order.
Beside each stand the question that it puts (`Request.call?`) and the error in which it fails
(`Request.error?`), told from what the stores answer, for the case that the stages before it have
passed.

An inquiry goes through stages when it ends at the first that fails, with its error and with no
question after it (`Inquiry.GoesThrough`). Sequencing keeps this (`GoesThrough.bind`), so that a
request comes apart at its stages (`put_goesThrough`).

| here | there |
| --- | --- |
| `Request.top`      | `fetch_user_stats` |
| `Request.artists`  | `create_artist_stats_cover` |
| `Request.grid`     | `create_grid_stats_cover`, with its `layout` as the number |
| `Request.releases` | `create_release_stats_cover` |
| `Stage.askUser` to `.requireRanking` | `fetch` |
| `Stage.askArtwork`, `.chooseDesign`  | `load_images`, and `addresses` in `generate_from_caa_ids` |

Main result `put_in_stages`.
-/
namespace CoverMosaic

/-! ## Inquiries that go through stages -/

namespace Inquiry

/-- The message of a store that fails. -/
def failure? {α : Type} : Except String α → Option String
  | .error message => some message
  | .ok _ => none

/-- What a store has found, if it answers and there is anything. -/
def found? {α : Type} : Except String (Option α) → Option α
  | .error _ => none
  | .ok found => found

/-- The error, unless there is a value. -/
def errorUnless {α : Type} (e : CoverError) : Option α → Option CoverError
  | some _ => none
  | none => some e

variable {σ α β : Type} {call? : σ → Option Call} {error? : σ → Option CoverError}
  {stages before after : List σ} {stage : σ} {q : Inquiry α} {P : α → Prop} {Q : β → Prop}

/-- How an inquiry ends that goes through stages in their order: either all of them pass and it
has a value, or it ends with the error of the first that fails. It has put the questions of the
stages that it has reached, and no other. -/
inductive GoesThrough (call? : σ → Option Call) (error? : σ → Option CoverError)
    (stages : List σ) (P : α → Prop) (q : Inquiry α) : Prop
  | passed (hpass : ∀ stage ∈ stages, error? stage = none)
    (hcalls : q.calls = stages.filterMap call?) (a : α) (hresult : q.result = .ok a) (ha : P a)
  | failed (before : List σ) (stage : σ) (after : List σ)
    (hsplit : stages = before ++ stage :: after) (hpass : ∀ stage ∈ before, error? stage = none)
    (e : CoverError) (herror : error? stage = some e)
    (hcalls : q.calls = (before ++ [stage]).filterMap call?) (hresult : q.result = .error e)

namespace GoesThrough

/-- One inquiry after another goes through the stages of both. -/
theorem bind (hq : GoesThrough call? error? before P q) {f : α → Inquiry β}
    (hf : ∀ a, P a → GoesThrough call? error? after Q (f a)) :
    GoesThrough call? error? (before ++ after) Q (q >>= f) := by
  obtain ⟨calls, result⟩ := q
  cases hq with
  | failed b s r hsplit hpass e herror hcalls hresult =>
    -- nothing of the second inquiry is reached
    obtain rfl : result = .error e := hresult
    exact .failed b s (r ++ after) (by simp [hsplit]) hpass e herror hcalls rfl
  | passed hpass hcalls a hresult ha =>
    obtain rfl : result = .ok a := hresult
    obtain rfl : calls = before.filterMap call? := hcalls
    cases hf a ha with
    | passed hpass' hcalls' b hresult' hb =>
      refine .passed (List.forall_mem_append.2 ⟨hpass, hpass'⟩) ?_ b hresult' hb
      show before.filterMap call? ++ (f a).calls = _
      rw [hcalls', List.filterMap_append]
    | failed b s r hsplit hpass' e herror hcalls' hresult' =>
      refine .failed (before ++ b) s r (by simp [hsplit])
        (List.forall_mem_append.2 ⟨hpass, hpass'⟩) e herror ?_ hresult'
      show before.filterMap call? ++ (f a).calls = _
      rw [hcalls', List.append_assoc, List.filterMap_append (l := before)]

theorem cons (hq : GoesThrough call? error? [stage] P q) {f : α → Inquiry β}
    (hf : ∀ a, P a → GoesThrough call? error? after Q (f a)) :
    GoesThrough call? error? (stage :: after) Q (q >>= f) :=
  hq.bind hf

theorem mono {P' : α → Prop} (h : GoesThrough call? error? stages P q) (hP : ∀ a, P a → P' a) :
    GoesThrough call? error? stages P' q := by
  cases h with
  | passed hpass hcalls a hresult ha => exact .passed hpass hcalls a hresult (hP a ha)
  | failed b s r hsplit hpass e herror hcalls hresult =>
    exact .failed b s r hsplit hpass e herror hcalls hresult

theorem of_ok (h : GoesThrough call? error? stages P q) {a : α} (hq : q.result = .ok a) : P a := by
  cases h with
  | passed _ _ b hresult hb =>
    obtain rfl := Except.ok.inj (hq.symm.trans hresult)
    exact hb
  | failed _ _ _ _ _ e _ _ hresult => cases hq.symm.trans hresult

/-- The questions stand in the order of their stages. -/
theorem calls_sublist (h : GoesThrough call? error? stages P q) :
    q.calls.Sublist (stages.filterMap call?) := by
  cases h with
  | passed _ hcalls => rw [hcalls]
  | failed b s r hsplit _ _ _ hcalls =>
    rw [hcalls, hsplit, List.append_cons b s r]
    exact (List.sublist_append_left (b ++ [s]) r).filterMap call?

end GoesThrough

theorem goesThrough_pure {a : α} (ha : P a) : GoesThrough call? error? [] P (pure a) :=
  .passed (by simp) rfl a rfl ha

/-- An inquiry of one stage. -/
theorem goesThrough_one (hcalls : q.calls = (call? stage).toList)
    (hok : ∀ a, q.result = .ok a → error? stage = none ∧ P a)
    (herror : ∀ e, q.result = .error e → error? stage = some e) :
    GoesThrough call? error? [stage] P q := by
  have hone : q.calls = [stage].filterMap call? := by
    rw [hcalls]
    cases h : call? stage <;> simp [h]
  cases hresult : q.result with
  | ok a =>
    obtain ⟨hpass, ha⟩ := hok a hresult
    exact .passed (by simpa using hpass) hone a hresult ha
  | error e => exact .failed [] stage [] rfl (by simp) e (herror e hresult) hone hresult

/-- A store is asked in a stage of its own. -/
theorem goesThrough_ask {call : Call} {answer : Except String α} (hcall : call? stage = some call)
    (herror : error? stage = (failure? answer).map (.storeFailed call.operation)) :
    GoesThrough call? error? [stage] (answer = .ok ·) (ask call answer) := by
  apply goesThrough_one
  · rw [hcall]; rfl
  · intro a ha
    cases answer with
    | error message => cases ha
    | ok b => cases ha; exact ⟨herror, rfl⟩
  · intro e he
    cases answer with
    | error message => cases he; exact herror
    | ok b => cases he

/-- What was found is looked at in a stage without a question. -/
theorem goesThrough_require {e : CoverError} {found : Option α} (hcall : call? stage = none)
    (herror : error? stage = errorUnless e found) :
    GoesThrough call? error? [stage] (found = some ·) (require e found) := by
  apply goesThrough_one
  · rw [hcall]; cases found <;> rfl
  · intro a ha
    cases found with
    | none => cases ha
    | some b => cases ha; exact ⟨herror, rfl⟩
  · intro e' he
    cases found with
    | none => cases he; exact herror
    | some b => cases he

end Inquiry

/-! ## Composing -/

namespace Composer

/-- The candidate of an identifier, unless it is empty or the store does not know its release. -/
def candidate? (known : String → Option ReleaseInfo) (id : String) : Option Candidate :=
  if id = "" then none
  else (known id).map fun info =>
    { credit := ⟨id, info.title, info.artist⟩
      artwork := info.image.bind fun image => info.imageRelease.map fun release =>
        ⟨image, release⟩ }

/-- The images for some releases on the design of a number: cell number `i` shows number `i` of
their candidates, those left out that the options pass over. -/
def Pictures (c : Composer) (s : Stores) (releases : List String) (n : Nat) (images : List Image) :
    Prop :=
  ∃ known design boxes, s.artwork (requested releases) = .ok known ∧
    (Catalog.designs? c.options.dimension).bind (·[n]?) = some design ∧
    List.Forall₂ (fun text b => c.grid.boxOfText text = .ok b) design boxes ∧
    images = boxes.zipIdx.filterMap fun (box, i) => c.missingArt.picture? 500 box
      (c.missingArt.usable (releases.filterMap (candidate? known)))[i]?

theorem candidates_eq (known : String → Option ReleaseInfo) (releases : List String) :
    candidates known releases = releases.filterMap (candidate? known) := by
  rw [candidates, List.filterMap_filter]
  refine List.filterMap_congr fun id _ => ?_
  by_cases hid : id = ""
  · simp [candidate?, hid]
  · rw [candidate?, if_neg hid, if_pos (by simpa using hid)]
    congr 1
    funext ⟨title, artist, image, release⟩
    cases image <;> cases release <;> rfl

theorem pictures_iff {c : Composer} {s : Stores} {releases : List String} {n : Nat}
    {images : List Image} {layout : Layout}
    (hl : layout.addresses c.options.dimension = Catalog.design c.options.dimension n) :
    c.Pictures s releases n images ↔
      ∃ known, s.artwork (requested releases) = .ok known ∧
        c.compose (candidates known releases) layout 500 = .ok images := by
  simp only [Pictures, compose_eq_ok_iff, hl, Catalog.design_eq_ok_iff, MissingArt.fill_eq_pictures,
    candidates_eq, exists_and_left]

/-- The images of a design are made if the catalog has it. -/
theorem compose_numbered (c : Composer) (candidates : List Candidate) (size : Nat)
    {layout : Layout} {n : Nat}
    (hl : layout.addresses c.options.dimension = Catalog.design c.options.dimension n) :
    (n < Catalog.registered c.options.dimension ∧
      ∃ images, c.compose candidates layout size = .ok images) ∨
    (Catalog.registered c.options.dimension ≤ n ∧
      c.compose candidates layout size = .error (.unknownDesign c.options.dimension n)) := by
  cases hdesign : Catalog.design c.options.dimension n with
  | ok design =>
    have hn : ¬ Catalog.registered c.options.dimension ≤ n := by
      intro hle
      cases hdesign.symm.trans (Catalog.design_eq_error_iff.2 ⟨hle, rfl⟩)
    obtain ⟨_, -, -, -, hok⟩ := c.compose_checked candidates size (hl.trans hdesign)
      (Catalog.design_checked c.in_range.1 hdesign)
    exact .inl ⟨Nat.not_le.1 hn, _, hok⟩
  | error e =>
    obtain ⟨hn, rfl⟩ := Catalog.design_eq_error_iff.1 hdesign
    refine .inr ⟨hn, ?_⟩
    rw [compose, hl, hdesign]
    rfl

end Composer

/-! ## Requests -/

/-- What an entry is. -/
def Entry.kind : Entry → Entity
  | .artist _ => .artists
  | .release _ => .releases
  | .recording _ => .recordings

namespace Ranking

/-- The first hundred entries of a ranking, with its full count. -/
def top (ranking : Ranking) : Ranking := { ranking with entries := ranking.entries.take 100 }

/-- A release or a recording of the ranking carries the identifier. -/
def Carries (ranking : Ranking) (id : String) : Prop :=
  (∃ x, .release x ∈ ranking.entries ∧ x.releaseId = some id) ∨
    ∃ x, .recording x ∈ ranking.entries ∧ x.releaseId = some id

theorem artists_eq_iff {ranking : Ranking} {artists : List RankedArtist} :
    artists = ranking.artists ↔
      artists.map Entry.artist = ranking.entries.filter (·.kind = .artists) := by
  have h (entry : Entry) (x : RankedArtist) : entry.artist? = some x ↔ entry = .artist x := by
    cases entry <;> simp [Entry.artist?]
  have hkind (entry : Entry) : entry.artist?.isSome = decide (entry.kind = .artists) := by
    cases entry <;> rfl
  simp only [Ranking.artists, eq_filterMap_iff h, hkind]

theorem releases_eq_iff {ranking : Ranking} {releases : List RankedRelease} :
    releases = ranking.releases ↔
      releases.map Entry.release = ranking.entries.filter (·.kind = .releases) := by
  have h (entry : Entry) (x : RankedRelease) : entry.release? = some x ↔ entry = .release x := by
    cases entry <;> simp [Entry.release?]
  have hkind (entry : Entry) : entry.release?.isSome = decide (entry.kind = .releases) := by
    cases entry <;> rfl
  simp only [Ranking.releases, eq_filterMap_iff h, hkind]

theorem mem_releaseIds {ranking : Ranking} {id : String} :
    id ∈ ranking.releaseIds ↔ ranking.Carries id := by
  simp only [releaseIds, List.mem_filterMap, Carries]
  constructor
  · rintro ⟨entry, hentry, hid⟩
    cases entry with
    | artist x => cases hid
    | release x => exact .inl ⟨x, hentry, hid⟩
    | recording x => exact .inr ⟨x, hentry, hid⟩
  · rintro (⟨x, hx, hid⟩ | ⟨x, hx, hid⟩)
    · exact ⟨_, hx, hid⟩
    · exact ⟨_, hx, hid⟩

end Ranking

/-- What a caller can ask for. -/
inductive Request where
  /-- The first entries of a ranking. -/
  | top (entity user period : String)
  /-- Ranked artists, without images. -/
  | artists (user period : String)
  /-- Release images on the design of a number. -/
  | grid (user period : String) (number : Nat)
  /-- Release images on the plain design, with the ranked releases. -/
  | releases (user period : String)
  deriving DecidableEq, Repr

namespace Request

/-- What a request is answered with. -/
def Answer : Request → Type
  | top .. => Ranking
  | artists .. => ArtistCover
  | grid .. => GridCover
  | releases .. => ReleaseCover

/-- Puts a request. -/
def put (c : Composer) (s : Stores) : (r : Request) → Inquiry r.Answer
  | top entity user period => s.topOfWords entity user period
  | artists user period => s.artistCover user period
  | grid user period number => c.gridCover s user period number
  | releases user period => c.releaseCover s user period

/-- The name of the user. -/
def user : Request → String
  | top _ user _ | artists user _ | grid user _ _ | releases user _ => user

/-- The word for the time that the ranking spans. -/
def period : Request → String
  | top _ _ period | artists _ period | grid _ period _ | releases _ period => period

/-- The word for the kind of things ranked. -/
def entity : Request → String
  | top entity _ _ => entity
  | artists .. => "artists"
  | grid .. | releases .. => "releases"

/-- The number of the design; the plain one is the first. -/
def design : Request → Nat
  | grid _ _ number => number
  | _ => 0

variable (c : Composer) (s : Stores) (r : Request)

/-- The span of time of that name. -/
def period? : Option Period := Period.all.find? (·.name = r.period)

/-- The kind of that name. -/
def entity? : Option Entity := Entity.all.find? (·.name = r.entity)

/-- The user of that name. -/
def userId? : Option UserId := Inquiry.found? (s.userByName r.user)

/-- What the statistics store answers. -/
def rankingAnswer? : Option (Except String (Option Ranking)) := do
  return s.ranking (← r.userId? s) (← r.entity?) (← r.period?)

/-- The ranking that the request is about. -/
def ranking? : Option Ranking := (r.rankingAnswer? s).bind Inquiry.found?

/-- The releases of its first entries. -/
def releases? : Option (List String) := (r.ranking? s).map fun ranking => ranking.top.releaseIds

/-- What the artwork store answers. -/
def artworkAnswer? : Option (Except String (String → Option ReleaseInfo)) :=
  (r.releases? s).map fun releases => s.artwork (Composer.requested releases)

/-! ## Stages -/

/-- A stage of a request. -/
inductive Stage where
  | readPeriod | readEntity | askUser | requireUser | askRanking | requireRanking
  | askArtwork | chooseDesign
  deriving DecidableEq, Repr

/-- The stages that a request goes through, in order. -/
def stages : Request → List Stage
  | top .. => [.readPeriod, .readEntity, .askUser, .requireUser, .askRanking, .requireRanking]
  | artists .. => [.readPeriod, .askUser, .requireUser, .askRanking, .requireRanking]
  | grid .. | releases .. =>
    [.readPeriod, .askUser, .requireUser, .askRanking, .requireRanking, .askArtwork, .chooseDesign]

/-- The question that a stage puts to a store. -/
def call? : Stage → Option Call
  | .askUser => some (.userByName r.user)
  | .askRanking => do return .ranking (← r.userId? s) (← r.entity?) (← r.period?)
  | .askArtwork => (r.releases? s).map fun releases => .artwork (Composer.requested releases)
  | _ => none

/-- The error in which a stage fails, when the stages before it have passed. -/
def error? : Stage → Option CoverError
  | .readPeriod =>
    Inquiry.errorUnless (.badWord "time range" r.period "invalid date range given") r.period?
  | .readEntity =>
    Inquiry.errorUnless
      (.badWord "stats entity" r.entity "must be one of artists, releases or recordings") r.entity?
  | .askUser => (Inquiry.failure? (s.userByName r.user)).map (.storeFailed "user_id_by_name")
  | .requireUser => Inquiry.errorUnless (.unknownUser r.user) (r.userId? s)
  | .askRanking => ((r.rankingAnswer? s).bind Inquiry.failure?).map (.storeFailed "get_stats")
  | .requireRanking => Inquiry.errorUnless (.noStatistics r.user r.entity r.period) (r.ranking? s)
  | .askArtwork =>
    ((r.artworkAnswer? s).bind Inquiry.failure?).map (.storeFailed "lookup_artwork")
  | .chooseDesign =>
    if r.design < Catalog.registered c.options.dimension then none
    else some (.unknownDesign c.options.dimension r.design)

/-- What the answer to a request is made of: the first entries of the ranking and its span. A cover
lists those of the entries that are of its kind, in rank order. -/
def Shows (top : Ranking) (period : Period) : (r : Request) → r.Answer → Prop
  | .top .., answer => answer = top
  | .artists user _, cover =>
    cover.artists.map Entry.artist = top.entries.filter (·.kind = .artists) ∧
      cover.caption = ⟨user, period.phrase, .artists, top.count⟩
  | .grid _ _ number, cover =>
    c.Pictures s top.releaseIds number cover.images ∧ cover.phrase = period.phrase
  | .releases user _, cover =>
    c.Pictures s top.releaseIds 0 cover.images ∧
      cover.releases.map Entry.release = top.entries.filter (·.kind = .releases) ∧
      cover.caption = ⟨user, period.phrase, .releases, top.count⟩

/-- The answer to a request of which no stage fails. -/
def IsAnswer (answer : r.Answer) : Prop :=
  ∃ ranking period, r.ranking? s = some ranking ∧ r.period? = some period ∧
    r.Shows c s ranking.top period answer

/-! ## From stage to stage -/

section
variable {c s r} {entity : Entity} {period : Period} {layout : Layout}

open Inquiry (GoesThrough goesThrough_ask goesThrough_require goesThrough_pure goesThrough_one)

theorem name_of_entity? (h : r.entity? = some entity) : entity.name = r.entity := by
  simpa using List.find?_some h

theorem name_of_period? (h : r.period? = some period) : period.name = r.period := by
  simpa using List.find?_some h

theorem readPeriod_goesThrough :
    GoesThrough (r.call? s) (r.error? c s) [.readPeriod] (r.period? = some ·)
      (Inquiry.ofExcept (Period.ofName r.period)) := by
  have h : Inquiry.ofExcept (Period.ofName r.period) =
      Inquiry.require (.badWord "time range" r.period "invalid date range given") r.period? := by
    unfold Period.ofName period?
    cases Period.all.find? (·.name = r.period) <;> rfl
  rw [h]
  exact goesThrough_require rfl rfl

theorem readEntity_goesThrough :
    GoesThrough (r.call? s) (r.error? c s) [.readEntity] (r.entity? = some ·)
      (Inquiry.ofExcept (Entity.ofName r.entity)) := by
  have h : Inquiry.ofExcept (Entity.ofName r.entity) =
      Inquiry.require
        (.badWord "stats entity" r.entity "must be one of artists, releases or recordings")
        r.entity? := by
    unfold Entity.ofName entity?
    cases Entity.all.find? (·.name = r.entity) <;> rfl
  rw [h]
  exact goesThrough_require rfl rfl

/-- From the user to the first entries of the ranking. -/
theorem topOf_goesThrough (he : r.entity? = some entity) (hp : r.period? = some period) :
    GoesThrough (r.call? s) (r.error? c s) [.askUser, .requireUser, .askRanking, .requireRanking]
      (fun top => ∃ ranking, r.ranking? s = some ranking ∧ top = ranking.top)
      (s.topOf entity r.user period) := by
  unfold Stores.topOf
  refine GoesThrough.cons (goesThrough_ask ?_ ?_) fun found hfound => ?_
  · rfl
  · rfl
  have hid? : r.userId? s = found := by rw [userId?, hfound]; rfl
  refine GoesThrough.cons (goesThrough_require rfl ?_) fun id hid => ?_
  · rw [← hid?]; rfl
  rw [hid] at hid?
  have hanswer : r.rankingAnswer? s = some (s.ranking id entity period) := by
    rw [rankingAnswer?, hid?, he, hp]; rfl
  refine GoesThrough.cons (goesThrough_ask ?_ ?_) fun found hfound => ?_
  · rw [call?, hid?, he, hp]; rfl
  · rw [error?, hanswer]; rfl
  have hranking? : r.ranking? s = found := by rw [ranking?, hanswer, hfound]; rfl
  refine GoesThrough.cons (goesThrough_require rfl ?_) fun ranking hranking => ?_
  · rw [name_of_entity? he, name_of_period? hp, ← hranking?]; rfl
  · exact goesThrough_pure ⟨ranking, hranking?.trans hranking, rfl⟩

theorem chooseDesign_goesThrough
    (hl : layout.addresses c.options.dimension = Catalog.design c.options.dimension r.design)
    (candidates : List Candidate) :
    GoesThrough (r.call? s) (r.error? c s) [.chooseDesign]
      (c.compose candidates layout 500 = .ok ·)
      (Inquiry.ofExcept (c.compose candidates layout 500)) := by
  have hcompose := c.compose_numbered candidates 500 hl
  apply goesThrough_one
  · rfl
  · intro images himages
    refine ⟨?_, himages⟩
    rcases hcompose with ⟨hn, -⟩ | ⟨-, herror⟩
    · rw [error?, if_pos hn]
    · cases himages.symm.trans herror
  · intro e he
    rcases hcompose with ⟨-, images, hok⟩ | ⟨hn, herror⟩
    · cases he.symm.trans hok
    · rw [error?, if_neg (Nat.not_lt.2 hn)]
      exact congrArg some (Except.error.inj (herror.symm.trans he))

/-- From the ranking to the images. -/
theorem composeReleases_goesThrough
    (hl : layout.addresses c.options.dimension = Catalog.design c.options.dimension r.design)
    {ranking : Ranking} (hr : r.ranking? s = some ranking) :
    GoesThrough (r.call? s) (r.error? c s) [.askArtwork, .chooseDesign]
      (c.Pictures s ranking.top.releaseIds r.design)
      (c.composeReleases s ranking.top.releaseIds layout 500) := by
  have hreleases : r.releases? s = some ranking.top.releaseIds := by rw [releases?, hr]; rfl
  unfold Composer.composeReleases
  refine GoesThrough.cons (goesThrough_ask ?_ ?_) fun known hknown => ?_
  · rw [call?, hreleases]; rfl
  · rw [error?, artworkAnswer?, hreleases]; rfl
  · exact (chooseDesign_goesThrough hl _).mono fun images himages =>
      (Composer.pictures_iff hl).2 ⟨known, hknown, himages⟩

end

theorem put_goesThrough :
    Inquiry.GoesThrough (r.call? s) (r.error? c s) r.stages (r.IsAnswer c s) (r.put c s) := by
  -- the word for the time comes first in every request
  cases r with
  | top entity user period =>
    refine .cons readPeriod_goesThrough fun p hp => ?_
    refine .cons readEntity_goesThrough fun e he => ?_
    refine (topOf_goesThrough he hp).mono ?_
    rintro _ ⟨ranking, hr, rfl⟩
    exact ⟨ranking, p, hr, hp, rfl⟩
  | artists user period =>
    refine .cons readPeriod_goesThrough fun p hp => ?_
    refine .bind (topOf_goesThrough rfl hp) ?_
    rintro _ ⟨ranking, hr, rfl⟩
    exact Inquiry.goesThrough_pure ⟨ranking, p, hr, hp, Ranking.artists_eq_iff.1 rfl, rfl⟩
  | grid user period number =>
    refine .cons readPeriod_goesThrough fun p hp => ?_
    refine .bind (topOf_goesThrough rfl hp) ?_
    rintro _ ⟨ranking, hr, rfl⟩
    refine .bind (composeReleases_goesThrough rfl hr) fun images himages => ?_
    exact Inquiry.goesThrough_pure ⟨ranking, p, hr, hp, himages, rfl⟩
  | releases user period =>
    refine .cons readPeriod_goesThrough fun p hp => ?_
    refine .bind (topOf_goesThrough rfl hp) ?_
    rintro _ ⟨ranking, hr, rfl⟩
    refine .bind (composeReleases_goesThrough rfl hr) fun images himages => ?_
    exact Inquiry.goesThrough_pure
      ⟨ranking, p, hr, hp, himages, Ranking.releases_eq_iff.1 rfl, rfl⟩

/-! ## The questions -/

/-- The stage that puts a question. -/
def stageOf : Call → Stage
  | .userByName _ => .askUser
  | .ranking .. => .askRanking
  | .artwork _ => .askArtwork

section
variable {s r} {stage : Stage} {call call' : Call}

theorem eq_stageOf (h : r.call? s stage = some call) : stage = stageOf call := by
  cases stage with
  | askUser => cases h; rfl
  | askRanking =>
    simp only [call?, Option.bind_eq_bind, Option.bind_eq_some_iff, Option.pure_def] at h
    obtain ⟨id, -, entity, -, period, -, h⟩ := h
    cases h
    rfl
  | askArtwork =>
    obtain ⟨releases, -, rfl⟩ := Option.map_eq_some_iff.1 h
    rfl
  | _ => cases h

theorem stageOf_eq_of_operation (h : call.operation = call'.operation) :
    stageOf call = stageOf call' := by
  cases call <;> cases call' <;> simp_all [Call.operation, stageOf]

theorem requested_of_call? {ids : List String} (h : r.call? s stage = some (.artwork ids)) :
    ∃ ranking, r.ranking? s = some ranking ∧
      ids = Composer.requested ranking.top.releaseIds := by
  obtain rfl : stage = .askArtwork := eq_stageOf h
  obtain ⟨releases, hreleases, heq⟩ := Option.map_eq_some_iff.1 h
  obtain ⟨ranking, hr, rfl⟩ := Option.map_eq_some_iff.1 hreleases
  exact ⟨ranking, hr, (Call.artwork.inj heq).symm⟩

end

theorem stages_nodup : r.stages.Nodup := by
  cases r <;> simp [stages]

/-- No two stages put the same kind of question. -/
theorem operations_nodup : ((r.stages.filterMap (r.call? s)).map Call.operation).Nodup := by
  rw [List.Nodup, List.pairwise_map, List.pairwise_filterMap]
  refine r.stages_nodup.imp fun {stage stage'} hne call hcall call' hcall' heq => hne ?_
  rw [eq_stageOf hcall, eq_stageOf hcall', stageOf_eq_of_operation heq]

/-- **Requests are answered in stages.** Whatever the stores answer, a request ends with the error
of the first of its stages that fails, and with the answer if none does. No store is asked after
that stage, and none twice. The artwork store is asked for a set: in ascending order, each once,
the identifiers that releases and recordings among the first hundred entries carry, the empty one
left out. -/
theorem put_in_stages :
    Inquiry.GoesThrough (r.call? s) (r.error? c s) r.stages (r.IsAnswer c s) (r.put c s) ∧
    ((r.put c s).calls.map Call.operation).Nodup ∧
    ∀ ids, .artwork ids ∈ (r.put c s).calls → ids.Pairwise (· < ·) ∧
      ∃ ranking, r.ranking? s = some ranking ∧
        ∀ id, id ∈ ids ↔ id ≠ "" ∧ ranking.top.Carries id := by
  have hput := r.put_goesThrough c s
  have hcalls := hput.calls_sublist
  refine ⟨hput, (r.operations_nodup s).sublist (hcalls.map _), fun ids hids => ?_⟩
  obtain ⟨stage, -, hstage⟩ := List.mem_filterMap.1 (hcalls.subset hids)
  obtain ⟨ranking, hr, rfl⟩ := requested_of_call? hstage
  refine ⟨Text.ascending_pairwise _, ranking, hr, fun id => ?_⟩
  rw [Composer.requested, Text.mem_ascending, List.mem_filter, Ranking.mem_releaseIds]
  simp [and_comm]

/-- A ranking with an entry of each kind: the covers list those of their own kind, and the recording
has an image beside the release. -/
theorem put_in_stages_listed :
    ∃ (c : Composer) (s : Stores) (artists : ArtistCover) (releases : ReleaseCover),
      ((Request.artists "rob" "week").put c s).result = .ok artists ∧
      artists.artists = [⟨none, "A", 9⟩] ∧ (Request.artists "rob" "week").IsAnswer c s artists ∧
      ((Request.releases "rob" "week").put c s).result = .ok releases ∧
      releases.releases = [⟨some "r", "R", "A", [], 7⟩] ∧
      releases.images.map (fun i => (i.url, i.credit)) =
        [("https://archive.org/download/mbid-r/mbid-r-3_thumb500.jpg", some ⟨"r", "R", "A"⟩),
          ("https://archive.org/download/mbid-p/mbid-p-4_thumb500.jpg", some ⟨"q", "Q", "A"⟩)] ∧
      (Request.releases "rob" "week").IsAnswer c s releases ∧
      .artwork ["q", "r"] ∈ ((Request.releases "rob" "week").put c s).calls ∧
      ∃ ranking, (Request.releases "rob" "week").ranking? s = some ranking ∧
        ∀ id, id ∈ ["q", "r"] ↔ id ≠ "" ∧ ranking.top.Carries id := by
  let c : Composer := ⟨⟨2, 128, "white", true, false⟩, .white, by decide⟩
  let s : Stores := {
    userByName := fun _ => .ok (some 7)
    ranking := fun _ _ _ => .ok (some ⟨[.artist ⟨none, "A", 9⟩, .release ⟨some "r", "R", "A", [], 7⟩,
      .recording ⟨none, "T", "A", none, some "q", 5⟩], 3⟩)
    artwork := fun _ => .ok fun id =>
      if id = "r" then some ⟨"R", "A", some 3, some "r"⟩ else some ⟨"Q", "A", some 4, some "p"⟩ }
  have hartists : ∃ cover : ArtistCover,
      ((Request.artists "rob" "week").put c s).result = .ok cover ∧
      cover.artists = [⟨none, "A", 9⟩] := ⟨_, rfl, rfl⟩
  have hreleases : ∃ cover : ReleaseCover,
      ((Request.releases "rob" "week").put c s).result = .ok cover ∧
      cover.releases = [⟨some "r", "R", "A", [], 7⟩] ∧
      cover.images.map (fun i => (i.url, i.credit)) =
        [("https://archive.org/download/mbid-r/mbid-r-3_thumb500.jpg", some ⟨"r", "R", "A"⟩),
          ("https://archive.org/download/mbid-p/mbid-p-4_thumb500.jpg", some ⟨"q", "Q", "A"⟩)] :=
    ⟨_, rfl, rfl, rfl⟩
  obtain ⟨artists, hanswer, hlisted⟩ := hartists
  obtain ⟨releases, hanswer', hlisted', himages⟩ := hreleases
  have hcall : .artwork ["q", "r"] ∈ ((Request.releases "rob" "week").put c s).calls := by decide
  obtain ⟨hstages, -, hasked⟩ := put_in_stages c s (.releases "rob" "week")
  exact ⟨c, s, artists, releases, hanswer, hlisted,
    (put_in_stages c s (.artists "rob" "week")).1.of_ok hanswer, hanswer', hlisted', himages,
    hstages.of_ok hanswer', hcall, (hasked _ hcall).2⟩

/-- Where every stage would fail, it is the first that does, and no store is asked. -/
example (c : Composer) (message : String) :
    let s : Stores := ⟨fun _ => .error message, fun _ _ _ => .error message, fun _ => .error message⟩
    (top "songs" "rob" "decade").put c s =
      ⟨[], .error (.badWord "time range" "decade" "invalid date range given")⟩ := rfl

end Request

end CoverMosaic
