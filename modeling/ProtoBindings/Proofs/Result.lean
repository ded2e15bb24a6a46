import Mathlib.Data.List.Forall2
import Mathlib.Data.List.Induction

namespace List.Forall₂

variable {α β : Type} {R : α → β → Prop} {xs : List α} {ys : List β}

theorem exists_right (all : Forall₂ R xs ys) {x : α} (member : x ∈ xs) : ∃ y ∈ ys, R x y := by
  induction all with
  | nil => cases member
  | cons first _ ih =>
    rcases List.mem_cons.mp member with rfl | member
    · exact ⟨_, List.mem_cons_self, first⟩
    · obtain ⟨y, found, related⟩ := ih member
      exact ⟨y, List.mem_cons_of_mem _ found, related⟩

theorem exists_left (all : Forall₂ R xs ys) {y : β} (member : y ∈ ys) : ∃ x ∈ xs, R x y := by
  obtain ⟨x, found, related⟩ := all.flip.exists_right member
  exact ⟨x, found, related⟩

theorem map_eq {γ : Type} (all : Forall₂ R xs ys) {f : α → γ} {g : β → γ}
    (values : ∀ x y, R x y → f x = g y) : xs.map f = ys.map g := by
  induction all with
  | nil => rfl
  | cons first _ ih => rw [List.map_cons, List.map_cons, values _ _ first, ih]

theorem of_map_eq {γ : Type} {f : α → γ} {g : β → γ} (same : xs.map f = ys.map g) :
    Forall₂ (fun x y => f x = g y) xs ys := by
  rwa [← forall₂_map_right_iff, ← forall₂_map_left_iff, forall₂_eq_eq_eq]

theorem imp_of_mem {S : α → β → Prop} (all : Forall₂ R xs ys)
    (imp : ∀ x ∈ xs, ∀ y ∈ ys, R x y → S x y) : Forall₂ S xs ys :=
  forall₂_iff_zip.mpr ⟨all.length_eq, fun member =>
    imp _ (of_mem_zip member).1 _ (of_mem_zip member).2 (forall₂_zip all member)⟩

theorem filter_map {γ : Type} {S : α → γ → Prop} (all : Forall₂ R xs ys) {p : α → Bool}
    {q : β → Bool} {g : β → γ} (tests : ∀ x ∈ xs, ∀ y, R x y → p x = q y)
    (values : ∀ x y, R x y → S x (g y)) : Forall₂ S (xs.filter p) ((ys.filter q).map g) := by
  induction all with
  | nil => exact .nil
  | @cons x y xs ys first _ ih =>
    have rest := ih fun z member => tests z (List.mem_cons_of_mem _ member)
    rw [List.filter_cons, List.filter_cons, tests x List.mem_cons_self y first]
    split
    · exact .cons (values x y first) rest
    · exact rest

theorem filter_map_eq {γ : Type} (all : Forall₂ R xs ys) {p : α → Bool} {q : β → Bool} {f : α → γ}
    {g : β → γ} (tests : ∀ x ∈ xs, ∀ y, R x y → p x = q y) (values : ∀ x y, R x y → f x = g y) :
    (xs.filter p).map f = (ys.filter q).map g := by
  have related := all.filter_map (S := fun x value => f x = value) tests values
  simpa using related.map_eq (f := f) (g := id) fun _ _ same => same

end List.Forall₂

namespace ProtoBindings.Result

variable {ε ε' α β : Type}

theorem ok_bind {a : α} {f : α → Except ε β} : (.ok a >>= f) = f a := rfl

theorem bind_eq_ok {x : Except ε α} {f : α → Except ε β} {b : β} :
    (x >>= f) = .ok b ↔ ∃ a, x = .ok a ∧ f a = .ok b := by
  cases x <;> simp [bind, Except.bind]

theorem bind_eq_error {x : Except ε α} {f : α → Except ε β} {e : ε} :
    (x >>= f) = .error e ↔ x = .error e ∨ ∃ a, x = .ok a ∧ f a = .error e := by
  cases x <;> simp [bind, Except.bind]

theorem bind_congr {x : Except ε α} {f g : α → Except ε β} (same : ∀ a, x = .ok a → f a = g a) :
    (x >>= f) = (x >>= g) := by
  cases x with
  | error e => rfl
  | ok a => exact same a rfl

theorem pure_eq_ok {a b : α} : (pure a : Except ε α) = .ok b ↔ a = b := by
  simp [pure, Except.pure]

theorem unless_eq_ok {c : Prop} [Decidable c] {e : ε} {x : Except ε α} {a : α} :
    (if c then .error e else x) = .ok a ↔ ¬ c ∧ x = .ok a := by
  by_cases fails : c <;> simp [fails]

theorem exists_of_isSome {x : Except ε α} (some : x.toOption.isSome = true) : ∃ a, x = .ok a := by
  cases x with
  | error e => cases some
  | ok a => exact ⟨a, rfl⟩

instance decidableOk {x : Except ε α} {p : α → Prop} [DecidablePred p] :
    Decidable (∃ a, x = .ok a ∧ p a) :=
  match x with
  | .error e => isFalse (by simp)
  | .ok a => decidable_of_iff (p a) (by simp)

instance decidableError {x : Except ε α} {e : ε} [DecidableEq ε] : Decidable (x = .error e) :=
  match x with
  | .error e' => decidable_of_iff (e' = e) (by simp)
  | .ok a => isFalse (by simp)

theorem exists_of_never {x : Except ε α} (never : ∀ e, x ≠ .error e) : ∃ a, x = .ok a := by
  cases x with
  | error e => exact absurd rfl (never e)
  | ok a => exact ⟨a, rfl⟩

theorem map_eq_ok {x : Except ε α} {f : α → β} {b : β} :
    x.map f = .ok b ↔ ∃ a, x = .ok a ∧ f a = b := by
  cases x <;> simp [Except.map]

theorem mapError_eq_ok {x : Except ε α} {f : ε → ε'} {a : α} :
    x.mapError f = .ok a ↔ x = .ok a := by
  cases x <;> simp [Except.mapError]

theorem mapError_eq_error {x : Except ε α} {f : ε → ε'} {e : ε'} :
    x.mapError f = .error e ↔ ∃ e', x = .error e' ∧ f e' = e := by
  cases x <;> simp [Except.mapError]

theorem mapM_eq_ok {f : α → Except ε β} {xs : List α} {ys : List β} :
    xs.mapM f = .ok ys ↔ List.Forall₂ (fun x y => f x = .ok y) xs ys := by
  induction xs generalizing ys with
  | nil => cases ys <;> simp [pure_eq_ok]
  | cons x xs ih =>
    simp only [List.mapM_cons, bind_eq_ok, pure_eq_ok, ih]
    constructor
    · rintro ⟨y, first, rest, others, rfl⟩
      exact .cons first others
    · intro all
      cases all with
      | cons first others => exact ⟨_, first, _, others, rfl⟩

theorem mapM_eq_error {f : α → Except ε β} {xs : List α} {e : ε} (failed : xs.mapM f = .error e) :
    ∃ x ∈ xs, f x = .error e := by
  induction xs with
  | nil => cases failed
  | cons x xs ih =>
    rw [List.mapM_cons, bind_eq_error] at failed
    rcases failed with here | ⟨y, _, failed⟩
    · exact ⟨x, List.mem_cons_self, here⟩
    · rcases bind_eq_error.mp failed with later | ⟨ys, _, done⟩
      · obtain ⟨z, member, there⟩ := ih later
        exact ⟨z, List.mem_cons_of_mem _ member, there⟩
      · cases done

theorem mapM_congr {f g : α → Except ε β} {xs : List α} (same : ∀ x ∈ xs, f x = g x) :
    xs.mapM f = xs.mapM g := by
  induction xs with
  | nil => rfl
  | cons x xs ih =>
    rw [List.mapM_cons, List.mapM_cons, same x List.mem_cons_self,
      ih fun y member => same y (List.mem_cons_of_mem _ member)]

theorem mapM_agree {f g : α → Except ε β} {xs : List α} {ys zs : List β}
    (same : ∀ x y z, f x = .ok y → g x = .ok z → y = z) (first : xs.mapM f = .ok ys)
    (second : xs.mapM g = .ok zs) : ys = zs := by
  rw [mapM_eq_ok] at first second
  induction first generalizing zs with
  | nil =>
    cases second
    rfl
  | cons here _ ih =>
    cases second with
    | cons there others => rw [same _ _ _ here there, ih others]

theorem mapM_succeeds {f : α → Except ε β} {xs : List α}
    (each : ∀ x ∈ xs, ∃ y, f x = .ok y) : ∃ ys, xs.mapM f = .ok ys := by
  induction xs with
  | nil => exact ⟨[], rfl⟩
  | cons x xs ih =>
    obtain ⟨y, first⟩ := each x List.mem_cons_self
    obtain ⟨ys, others⟩ := ih fun z member => each z (List.mem_cons_of_mem _ member)
    exact ⟨y :: ys, mapM_eq_ok.mpr (.cons first (mapM_eq_ok.mp others))⟩

section Answers

/-- A computation of two steps answers if both do, where the second one answers for all results of the
    first or for none. -/
theorem bind_answers {x : Except ε α} {f : α → Except ε β} {p : Prop}
    (later : ∀ a, (∃ b, f a = .ok b) ↔ p) : (∃ b, (x >>= f) = .ok b) ↔ (∃ a, x = .ok a) ∧ p := by
  simp only [bind_eq_ok]
  constructor
  · rintro ⟨b, a, first, second⟩
    exact ⟨⟨a, first⟩, (later a).mp ⟨b, second⟩⟩
  · rintro ⟨⟨a, first⟩, holds⟩
    obtain ⟨b, second⟩ := (later a).mpr holds
    exact ⟨b, a, first, second⟩

theorem bind_pure_answers {x : Except ε α} {f : α → β} :
    (∃ b, (x >>= fun a => pure (f a)) = .ok b) ↔ ∃ a, x = .ok a :=
  (bind_answers fun a => iff_true_intro ⟨f a, rfl⟩).trans (and_iff_left trivial)

theorem mapM_answers {f : α → Except ε β} {xs : List α} :
    (∃ ys, xs.mapM f = .ok ys) ↔ ∀ x ∈ xs, ∃ y, f x = .ok y := by
  refine ⟨fun ⟨ys, walk⟩ x member => ?_, mapM_succeeds⟩
  obtain ⟨y, _, found⟩ := (mapM_eq_ok.mp walk).exists_right member
  exact ⟨y, found⟩

end Answers

section FailsOnly

variable {p : ε → Prop} {q : ε' → Prop}

def FailsOnly (p : ε → Prop) (x : Except ε α) : Prop := ∀ e, x = .error e → p e

theorem FailsOnly.ok (a : α) : FailsOnly p (.ok a) := by
  intro e failed
  cases failed

theorem FailsOnly.error {e : ε} (holds : p e) : FailsOnly p (.error e : Except ε α) := by
  intro e' failed
  cases failed
  exact holds

theorem FailsOnly.bind {x : Except ε α} {f : α → Except ε β} (first : FailsOnly p x)
    (others : ∀ a, FailsOnly p (f a)) : FailsOnly p (x >>= f) := by
  intro e failed
  rcases bind_eq_error.mp failed with here | ⟨a, _, later⟩
  · exact first e here
  · exact others a e later

theorem FailsOnly.mapError {x : Except ε α} {f : ε → ε'} (inside : FailsOnly p x)
    (maps : ∀ e, p e → q (f e)) : FailsOnly q (x.mapError f) := by
  cases x with
  | ok a => exact .ok a
  | error e => exact .error (maps e (inside e rfl))

theorem FailsOnly.of_mapError (x : Except ε α) {f : ε → ε'} (maps : ∀ e, q (f e)) :
    FailsOnly q (x.mapError f) := by
  cases x with
  | ok a => exact .ok a
  | error e => exact .error (maps e)

theorem FailsOnly.map {x : Except ε α} (inside : FailsOnly p x) (f : α → β) :
    FailsOnly p (x.map f) := by
  cases x with
  | ok a => exact .ok (f a)
  | error e => exact .error (inside e rfl)

theorem FailsOnly.mapM {f : α → Except ε β} {xs : List α} (each : ∀ x, FailsOnly p (f x)) :
    FailsOnly p (xs.mapM f) := by
  intro e failed
  obtain ⟨x, _, failed⟩ := mapM_eq_error failed
  exact each x e failed

end FailsOnly

end ProtoBindings.Result

theorem List.find?_of_nodup {α : Type} {name : α → String} {items : List α}
    (distinct : (items.map name).Nodup) {item : α} (isItem : item ∈ items) :
    items.find? (name · == name item) = some item := by
  induction items with
  | nil => cases isItem
  | cons first rest ih =>
    rw [List.map_cons, List.nodup_cons] at distinct
    rcases List.mem_cons.mp isItem with rfl | isItem
    · simp
    · have other : name first ≠ name item := fun same =>
        distinct.1 (same ▸ List.mem_map_of_mem isItem)
      rw [List.find?_cons_of_neg (by simpa using other)]
      exact ih distinct.2 isItem

theorem List.eraseDups_concat {α : Type} [DecidableEq α] (items : List α) (item : α) :
    (items ++ [item]).eraseDups =
      if item ∈ items then items.eraseDups else items.eraseDups ++ [item] := by
  rw [List.eraseDups_append, List.removeAll]
  split
  · rename_i known
    simp [known]
  · rename_i new
    simp [new, List.eraseDups_cons]

theorem List.nodup_eraseDups {α : Type} [DecidableEq α] (items : List α) : items.eraseDups.Nodup := by
  induction items using List.reverseRecOn with
  | nil => exact List.nodup_nil
  | append_singleton items item ih =>
    rw [List.eraseDups_concat]
    split
    · exact ih
    · rename_i new
      refine List.nodup_append.mpr ⟨ih, List.pairwise_singleton _ item, ?_⟩
      rintro _ known _ isItem rfl
      rw [List.mem_singleton.mp isItem] at known
      exact new (List.mem_eraseDups.mp known)
