import Mathlib.Data.List.Forall2
/-!
# Traversals

Computations that stop at the first failure. `bind_eq_ok_iff` takes a sequence of two apart. A list
is read element by element; when that succeeds the results stand to the elements one for one
(`mapM_eq_some_iff`, `mapM_eq_ok_iff`, and `forM_eq_ok_iff` where there are no results), and when it
fails the first failure is the answer (`mapM_eq_error_iff`). A computation with one error only ends
with it where it has no value (`eq_error_iff_forall_ne_ok`), and one that reads what was written
tells the values apart by their written forms (`eq_iff_written_eq`).
-/
namespace CoverMosaic

variable {α β ε : Type}

theorem bind_eq_ok_iff {x : Except ε α} {f : α → Except ε β} {b : β} :
    (x >>= f) = .ok b ↔ ∃ a, x = .ok a ∧ f a = .ok b := by
  cases x <;> simp [bind, Except.bind]

theorem eq_error_iff_forall_ne_ok {x : Except ε α} {e₀ e : ε} (h : ∀ e, x = .error e → e = e₀) :
    x = .error e ↔ (∀ a, x ≠ .ok a) ∧ e = e₀ := by
  cases x with
  | error e' =>
    obtain rfl := h e' rfl
    simp [eq_comm]
  | ok a => simp

theorem eq_iff_written_eq {write : α → β} {read : β → Except ε α}
    (h : ∀ a, read (write a) = .ok a) {a b : α} : a = b ↔ write a = write b := by
  constructor
  · exact congrArg write
  · intro heq
    have hread := h a
    rw [heq, h b] at hread
    exact (Except.ok.inj hread).symm

theorem forall₂_eq_map_iff {f : β → α} {xs : List α} {ys : List β} :
    List.Forall₂ (fun x y => x = f y) xs ys ↔ xs = ys.map f := by
  rw [← List.forall₂_map_right_iff (R := (· = ·)), List.forall₂_eq_eq_eq]

/-- What a partial inverse of `f` picks out of a list, told by `f`. -/
theorem eq_filterMap_iff {f : α → β} {g : β → Option α} (h : ∀ y x, g y = some x ↔ y = f x)
    {xs : List α} {ys : List β} :
    xs = ys.filterMap g ↔ xs.map f = ys.filter fun y => (g y).isSome := by
  have hinjective : Function.Injective f := by
    intro x x' heq
    exact Option.some.inj (((h _ x).2 rfl).symm.trans ((h _ x').2 heq))
  have hmap : (ys.filterMap g).map f = ys.filter fun y => (g y).isSome := by
    induction ys with
    | nil => rfl
    | cons y ys ih =>
      cases hg : g y with
      | none => simp [hg, ih]
      | some x =>
        obtain rfl := (h y x).1 hg
        simp [hg, ih]
  rw [← hmap, (List.map_injective_iff.2 hinjective).eq_iff]

theorem mapM_eq_some_iff {f : α → Option β} {xs : List α} {ys : List β} :
    xs.mapM f = some ys ↔ List.Forall₂ (fun x y => f x = some y) xs ys := by
  induction xs generalizing ys with
  | nil => simp [eq_comm]
  | cons x xs ih =>
    simp only [List.mapM_cons, Option.bind_eq_bind, Option.bind_eq_some_iff, ih,
      List.forall₂_cons_left_iff]
    simp [eq_comm]

theorem mapM_eq_ok_iff {f : α → Except ε β} {xs : List α} {ys : List β} :
    xs.mapM f = .ok ys ↔ List.Forall₂ (fun x y => f x = .ok y) xs ys := by
  induction xs generalizing ys with
  | nil => simp [pure, Except.pure, eq_comm]
  | cons x xs ih =>
    simp only [List.mapM_cons, bind_eq_ok_iff, ih, List.forall₂_cons_left_iff]
    simp [pure, Except.pure, eq_comm]

theorem forM_eq_ok_iff {f : α → Except ε Unit} {xs : List α} :
    xs.forM f = .ok () ↔ ∀ x ∈ xs, f x = .ok () := by
  induction xs with
  | nil => simp [List.forM, pure, Except.pure]
  | cons x xs ih =>
    rw [List.forM, bind_eq_ok_iff, List.forall_mem_cons, ← ih]
    constructor
    · rintro ⟨⟨⟩, hx, hxs⟩; exact ⟨hx, hxs⟩
    · rintro ⟨hx, hxs⟩; exact ⟨(), hx, hxs⟩

theorem mapM_cons_eq_error_iff {f : α → Except ε β} {x : α} {xs : List α} {e : ε} :
    (x :: xs).mapM f = .error e ↔
      f x = .error e ∨ ∃ y, f x = .ok y ∧ xs.mapM f = .error e := by
  rw [List.mapM_cons]
  cases f x with
  | error e' => simp [bind, Except.bind]
  | ok y => cases xs.mapM f <;> simp [bind, Except.bind, pure, Except.pure]

/-- A traversal ends with the error of the first element that has one. -/
theorem mapM_eq_error_iff {f : α → Except ε β} {xs : List α} {e : ε} :
    xs.mapM f = .error e ↔ ∃ before x after, xs = before ++ x :: after ∧
      (∀ z ∈ before, ∃ y, f z = .ok y) ∧ f x = .error e := by
  induction xs with
  | nil => simp [pure, Except.pure]
  | cons x xs ih =>
    rw [mapM_cons_eq_error_iff, ih]
    constructor
    · rintro (hx | ⟨y, hx, before, z, after, rfl, hbefore, hz⟩)
      · exact ⟨[], x, xs, rfl, by simp, hx⟩
      · exact ⟨x :: before, z, after, rfl, List.forall_mem_cons.2 ⟨⟨y, hx⟩, hbefore⟩, hz⟩
    · rintro ⟨_ | ⟨w, before⟩, z, after, hsplit, hbefore, hz⟩
      · obtain ⟨rfl, -⟩ := List.cons.inj hsplit
        exact .inl hz
      · obtain ⟨rfl, rfl⟩ := List.cons.inj hsplit
        obtain ⟨⟨y, hx⟩, hbefore⟩ := List.forall_mem_cons.1 hbefore
        exact .inr ⟨y, hx, before, z, after, rfl, hbefore, hz⟩

theorem mapM_append_singleton_eq_some_iff {f : α → Option β} {xs : List α} {x : α} {ys : List β} :
    (xs ++ [x]).mapM f = some ys ↔
      ∃ zs y, xs.mapM f = some zs ∧ f x = some y ∧ ys = zs ++ [y] := by
  simp only [List.mapM_append, List.mapM_cons, List.mapM_nil, Option.bind_eq_bind,
    Option.bind_eq_some_iff, Option.pure_def, Option.some.injEq]
  constructor
  · rintro ⟨zs, hzs, _, ⟨y, hy, _, rfl, rfl⟩, rfl⟩; exact ⟨zs, y, hzs, hy, rfl⟩
  · rintro ⟨zs, y, hzs, hy, rfl⟩; exact ⟨zs, hzs, _, ⟨y, hy, _, rfl, rfl⟩, rfl⟩

/-- A traversal by a function that has a value exactly where `P` holds. -/
theorem mapM_eq_some_iff_map {f : α → Option β} {P : α → Prop} {h : α → β}
    (hf : ∀ x y, f x = some y ↔ P x ∧ y = h x) {xs : List α} {ys : List β} :
    xs.mapM f = some ys ↔ (∀ x ∈ xs, P x) ∧ ys = xs.map h := by
  rw [mapM_eq_some_iff]
  constructor
  · intro hall
    induction hall with
    | nil => simp
    | cons hxy _ ih =>
      obtain ⟨hP, rfl⟩ := (hf _ _).1 hxy
      obtain ⟨hPs, rfl⟩ := ih
      exact ⟨List.forall_mem_cons.2 ⟨hP, hPs⟩, rfl⟩
  · rintro ⟨hP, rfl⟩
    rw [List.forall₂_map_right_iff, List.forall₂_same]
    exact fun x hx => (hf _ _).2 ⟨hP x hx, rfl⟩

end CoverMosaic
