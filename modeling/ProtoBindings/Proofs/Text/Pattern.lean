import Mathlib.Data.List.Basic

namespace ProtoBindings.Text

variable {α β : Type}

/-- The ways in which a text can start with a match, in the order in which they are tried, each with what
    was found and the rest of the text. -/
abbrev Pattern (α : Type) := List Char → List (α × List Char)

namespace Pattern

def one (p : Char → Bool) : Pattern Char
  | [] => []
  | c :: rest => if p c then [(c, rest)] else []

/-- One or more characters of a class; a longer run is tried before a shorter one. -/
def many (p : Char → Bool) : Pattern (List Char)
  | [] => []
  | c :: rest =>
    if p c then (many p rest).map (fun way => (c :: way.1, way.2)) ++ [([c], rest)] else []

def andThen (first : Pattern α) (second : Pattern β) : Pattern (α × β) := fun cs =>
  (first cs).flatMap fun way => (second way.2).map fun next => ((way.1, next.1), next.2)

def exactly (run : List Char) : Pattern Unit := fun cs =>
  if run <+: cs then [((), cs.drop run.length)] else []

def ending : Pattern Unit := fun cs => if cs = [] ∨ cs = ['\n'] then [((), cs)] else []

variable {p q : Char → Bool} {c d : Char} {cs rest : List Char}

theorem one_cons_of_pos (holds : p c = true) : one p (c :: rest) = [(c, rest)] := if_pos holds

theorem one_cons_of_neg (fails : p c = false) : one p (c :: rest) = [] := if_neg (by simp [fails])

theorem many_cons_of_neg (fails : p c = false) : many p (c :: rest) = [] := if_neg (by simp [fails])

theorem head?_many (holds : p c = true) :
    (many p (c :: rest)).head? = some (c :: rest.takeWhile p, rest.dropWhile p) := by
  induction rest generalizing c with
  | nil => simp [many, holds]
  | cons d rest ih =>
    unfold many
    rw [if_pos holds]
    by_cases next : p d = true
    · simp [ih next, next]
    · have stops : p d = false := by simpa using next
      simp [many_cons_of_neg stops, stops]

variable {second : Pattern β}

theorem andThen_one (holds : p c = true) : andThen (one p) second (c :: rest) =
    (second rest).map fun next => ((c, next.1), next.2) := by
  rw [andThen, one_cons_of_pos holds, List.flatMap_singleton]

theorem andThen_one_of_neg (fails : p c = false) : andThen (one p) second (c :: rest) = [] := by
  rw [andThen, one_cons_of_neg fails, List.flatMap_nil]

theorem andThen_one_eq_nil (later : second rest = []) : andThen (one p) second (c :: rest) = [] := by
  by_cases holds : p c = true
  · rw [andThen_one holds, later, List.map_nil]
  · exact andThen_one_of_neg (by simpa using holds)

theorem andThen_one_one (holds : p c = true) (holds' : q d = true) :
    andThen (one p) (one q) (c :: d :: rest) = [((c, d), rest)] := by
  rw [andThen_one holds, one_cons_of_pos holds', List.map_singleton]

theorem mem_many_cons {run : List Char} : (run, rest) ∈ many p (c :: cs) ↔
    p c = true ∧ ∃ later, run = c :: later ∧ ((later, rest) ∈ many p cs ∨ later = [] ∧ rest = cs) := by
  by_cases holds : p c = true
  · rw [many, if_pos holds, List.mem_append, List.mem_map, List.mem_singleton]
    constructor
    · rintro (⟨⟨later, left⟩, member, same⟩ | same)
      · cases same
        exact ⟨holds, later, rfl, .inl member⟩
      · cases same
        exact ⟨holds, [], rfl, .inr ⟨rfl, rfl⟩⟩
    · rintro ⟨_, later, rfl, member | ⟨rfl, rfl⟩⟩
      · exact .inl ⟨_, member, rfl⟩
      · exact .inr rfl
  · rw [many_cons_of_neg (by simpa using holds)]
    simp [holds]

theorem mem_many {run : List Char} : (run, rest) ∈ many p cs ↔
    run ≠ [] ∧ (∀ c ∈ run, p c = true) ∧ cs = run ++ rest := by
  induction cs generalizing run with
  | nil => simp +contextual [many]
  | cons c cs ih =>
    rw [mem_many_cons]
    constructor
    · rintro ⟨holds, later, rfl, member | ⟨rfl, rfl⟩⟩
      · obtain ⟨_, all, rfl⟩ := ih.mp member
        exact ⟨List.cons_ne_nil c later, List.forall_mem_cons.mpr ⟨holds, all⟩, rfl⟩
      · exact ⟨List.cons_ne_nil c [], List.forall_mem_singleton.mpr holds, rfl⟩
    · rintro ⟨nonempty, all, split⟩
      obtain ⟨d, later, rfl⟩ := List.exists_cons_of_ne_nil nonempty
      obtain ⟨rfl, others⟩ := List.cons_eq_cons.mp split
      rw [List.forall_mem_cons] at all
      refine ⟨all.1, later, rfl, ?_⟩
      by_cases final : later = []
      · subst final
        exact .inr ⟨rfl, others.symm⟩
      · exact .inl (ih.mpr ⟨final, all.2, others⟩)

theorem mem_andThen {first : Pattern α} {x : α} {y : β} : ((x, y), rest) ∈ andThen first second cs ↔
    ∃ left, (x, left) ∈ first cs ∧ (y, rest) ∈ second left := by
  simp only [andThen, List.mem_flatMap, List.mem_map, Prod.mk.injEq, Prod.exists]
  constructor
  · rintro ⟨x', left, found, y', rest', found', ⟨rfl, rfl⟩, rfl⟩
    exact ⟨left, found, found'⟩
  · rintro ⟨left, found, found'⟩
    exact ⟨x, left, found, y, rest, found', ⟨rfl, rfl⟩, rfl⟩

theorem mem_exactly {run : List Char} {u : Unit} : (u, rest) ∈ exactly run cs ↔ cs = run ++ rest := by
  rw [exactly]
  constructor
  · split
    · rename_i starts
      obtain ⟨left, rfl⟩ := starts
      rw [List.drop_left, List.mem_singleton]
      rintro ⟨⟩
      rfl
    · rintro ⟨⟩
  · rintro rfl
    simp

theorem mem_ending {u : Unit} : (u, rest) ∈ ending cs ↔ (rest = [] ∨ rest = ['\n']) ∧ cs = rest := by
  rw [ending]
  constructor
  · split
    · rename_i ends
      rw [List.mem_singleton]
      rintro ⟨⟩
      exact ⟨ends, rfl⟩
    · rintro ⟨⟩
  · rintro ⟨ends, rfl⟩
    rw [if_pos ends]
    exact List.mem_singleton_self _

end Pattern

/-- Substitution from left to right. Where the pattern matches, the first way counts and the search goes
    on behind it; a character where it does not match stays. -/
inductive Substituted (pattern : Pattern α) (text : α → List Char) : List Char → List Char → Prop
  | done : Substituted pattern text [] []
  | found {cs rest out : List Char} {x : α} : (pattern cs).head? = some (x, rest) →
      Substituted pattern text rest out → Substituted pattern text cs (text x ++ out)
  | passed {c : Char} {rest out : List Char} : pattern (c :: rest) = [] →
      Substituted pattern text rest out → Substituted pattern text (c :: rest) (c :: out)

namespace Substituted

variable {pattern : Pattern α} {text : α → List Char} {cs rest out out' : List Char}

theorem unique (empty : pattern [] = []) (first : Substituted pattern text cs out)
    (second : Substituted pattern text cs out') : out = out' := by
  induction first generalizing out' with
  | done =>
    cases second with
    | done => rfl
    | found way _ => simp [empty] at way
  | found way _ ih =>
    cases second with
    | done => simp [empty] at way
    | found way' later =>
      rw [way] at way'
      cases way'
      rw [ih later]
    | passed fails _ => simp [fails] at way
  | passed fails _ ih =>
    cases second with
    | found way _ => simp [fails] at way
    | passed _ later => rw [ih later]

theorem passed_run {run : List Char}
    (fails : ∀ suffix, suffix ≠ [] → suffix <:+ run → pattern (suffix ++ rest) = [])
    (later : Substituted pattern text rest out) :
    Substituted pattern text (run ++ rest) (run ++ out) := by
  induction run with
  | nil => exact later
  | cons c run ih =>
    have here : pattern (c :: (run ++ rest)) = [] := fails _ (List.cons_ne_nil c run) List.suffix_rfl
    refine .passed here (ih fun suffix nonempty isSuffix => ?_)
    exact fails suffix nonempty (isSuffix.trans (List.suffix_cons c run))

end Substituted

end ProtoBindings.Text
