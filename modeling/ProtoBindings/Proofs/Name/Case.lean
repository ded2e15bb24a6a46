import Mathlib.Data.List.Destutter
import Mathlib.Data.List.TakeWhile
import ProtoBindings.Proofs.Name.Word
import ProtoBindings.Proofs.Text.Pattern

namespace ProtoBindings.Name

open Text (Pattern Substituted)

variable {c d : Char} {cs rest out : List Char}

theorem not_isCapital_of_isSmall (small : isSmall c = true) : isCapital c = false := by
  simp only [isSmall, isCapital, Bool.and_eq_true, Bool.and_eq_false_iff, decide_eq_true_eq,
    decide_eq_false_iff_not, Char.not_le] at small ⊢
  exact .inr (Std.lt_of_lt_of_le (by decide) small.1)

theorem not_isSmallOrDigit_of_isCapital (capital : isCapital c = true) : isSmallOrDigit c = false := by
  have word : isWordChar c = true := by rw [isWordChar, capital, Bool.true_or]
  have all := forall_ascii (p := fun c => !isCapital c || !isSmallOrDigit c) (by decide)
    (ascii_of_isWordChar word)
  simpa [capital] using all

theorem not_isSmall_of_isCapital (capital : isCapital c = true) : isSmall c = false := by
  refine Bool.eq_false_iff.mpr fun small => ?_
  rw [not_isCapital_of_isSmall small] at capital
  cases capital

section Acronyms

/-- A text as runs of capitals and other characters, with what becomes of it: a run is split before its
    last capital if it has more and a small letter follows. -/
inductive SplitRuns : List Char → List Char → Prop
  | done : SplitRuns [] []
  | split {run rest out : List Char} {last d : Char} : run ≠ [] →
      (∀ c ∈ run, isCapital c = true) → isCapital last = true → isSmall d = true →
      SplitRuns rest out → SplitRuns (run ++ last :: d :: rest) (run ++ '_' :: last :: d :: out)
  | whole {run rest out : List Char} : (∀ c ∈ run, isCapital c = true) →
      (∀ c ∈ rest.head?, isCapital c = false) →
      (run.length < 2 ∨ ∀ c ∈ rest.head?, isSmall c = false) →
      SplitRuns rest out → SplitRuns (run ++ rest) (run ++ out)
  | other {c : Char} {rest out : List Char} : isCapital c = false →
      SplitRuns rest out → SplitRuns (c :: rest) (c :: out)

theorem splitRun_of_small {run : List Char} {last : Char} (nonempty : run ≠ [])
    (small : isSmall d = true) : splitRun (run ++ [last]) (some d) = run ++ ['_', last] := by
  have init : (run ++ [last]).dropLast = run := List.dropLast_concat
  have final : (run ++ [last]).getLast? = some last := List.getLast?_concat
  match run with
  | [] => exact absurd rfl nonempty
  | [first] => simp [splitRun, small]
  | first :: second :: run =>
    simp only [List.cons_append] at init final ⊢
    rw [splitRun, init, final]
    simp [small]

theorem splitRun_of_other {run : List Char} {next : Option Char}
    (other : run.length < 2 ∨ ∀ c ∈ next, isSmall c = false) : splitRun run next = run := by
  unfold splitRun
  split
  · rcases other with short | notSmall
    · exact absurd short (by simp)
    · cases next with
      | none => rfl
      | some d => simp [notSmall d rfl]
  · rfl

theorem SplitRuns.run {run : List Char} (capitals : ∀ c ∈ run, isCapital c = true)
    (stops : ∀ c ∈ rest.head?, isCapital c = false) (later : SplitRuns rest (splitAcronyms rest))
    (beyond : ∀ d left, rest = d :: left → SplitRuns left (splitAcronyms left)) :
    SplitRuns (run ++ rest) (splitRun run rest.head? ++ splitAcronyms rest) := by
  by_cases other : run.length < 2 ∨ ∀ c ∈ rest.head?, isSmall c = false
  · rw [splitRun_of_other other]
    exact .whole capitals stops other later
  · push Not at other
    obtain ⟨long, d, isHead, small⟩ := other
    obtain ⟨left, rfl⟩ := List.head?_eq_some_iff.mp isHead
    have shown : splitAcronyms (d :: left) = d :: splitAcronyms left := by
      rw [splitAcronyms, if_neg (by simp [stops d isHead])]
    rcases List.eq_nil_or_concat' run with rfl | ⟨init, last, rfl⟩
    · exact absurd long (by decide)
    · have nonempty : init ≠ [] := by
        rintro rfl
        exact absurd long (by simp)
      have smallNext : isSmall d = true := by simpa using small
      rw [List.forall_mem_append, List.forall_mem_singleton] at capitals
      rw [List.head?_cons, splitRun_of_small nonempty smallNext, shown]
      have whole := SplitRuns.split nonempty capitals.1 capitals.2 smallNext (beyond d left rfl)
      simpa using whole

theorem splitRuns_splitAcronyms (cs : List Char) : SplitRuns cs (splitAcronyms cs) := by
  induction size : cs.length using Nat.strong_induction_on generalizing cs with
  | _ n ih =>
  subst size
  cases cs with
  | nil =>
    rw [splitAcronyms]
    exact .done
  | cons c rest =>
    have shorter (left : List Char) (within : left.length ≤ rest.length) :
        SplitRuns left (splitAcronyms left) := ih _ (Nat.lt_succ_of_le within) left rfl
    rw [splitAcronyms]
    by_cases capital : isCapital c = true
    · rw [if_pos capital]
      have parts : c :: rest = (c :: rest.takeWhile isCapital) ++ rest.dropWhile isCapital := by
        rw [List.cons_append, List.takeWhile_append_dropWhile]
      have within := (List.dropWhile_sublist isCapital (l := rest)).length_le
      have stops : ∀ d ∈ (rest.dropWhile isCapital).head?, isCapital d = false := by
        intro d isHead
        have notCapital := List.head?_dropWhile_not isCapital rest
        rwa [isHead] at notCapital
      have capitals : ∀ d ∈ c :: rest.takeWhile isCapital, isCapital d = true :=
        List.forall_mem_cons.mpr ⟨capital, fun d member => List.mem_takeWhile_imp member⟩
      rw [parts]
      refine .run capitals stops (shorter _ within) fun d left split => shorter left ?_
      rw [split] at within
      exact Nat.le_of_succ_le within
    · rw [if_neg capital]
      exact .other (by simpa using capital) (shorter rest (Nat.le_refl _))

end Acronyms

section Substitution

/-- The end of a run of capitals, whose last one starts the next word. -/
def acronymEnd : Pattern (List Char × Char × Char) :=
  .andThen (.many isCapital) (.andThen (.one isCapital) (.one isSmall))

def spacedAcronym (found : List Char × Char × Char) : List Char :=
  found.1 ++ ['_', found.2.1, found.2.2]

def wordEnd : Pattern (Char × Char) := .andThen (.one isSmallOrDigit) (.one isCapital)

def spacedWord (found : Char × Char) : List Char := [found.1, '_', found.2]

def isUnderscore (c : Char) : Bool := c == '_'

def underscores : Pattern (Char × List Char) := .andThen (.one isUnderscore) (.many isUnderscore)

/-- The results of the three substitutions after each other. -/
def Separated (cs out : List Char) : Prop :=
  ∃ acronyms words, Substituted acronymEnd spacedAcronym cs acronyms ∧
    Substituted wordEnd spacedWord acronyms words ∧
    Substituted underscores (fun _ => ['_']) words out

theorem acronymEnd_cons (capital : isCapital c = true) : acronymEnd (c :: rest) =
    (acronymEnd rest).map (fun way => ((c :: way.1.1, way.1.2), way.2)) ++
      (Pattern.andThen (.one isCapital) (.one isSmall) rest).map fun way => (([c], way.1), way.2) := by
  unfold acronymEnd Pattern.andThen
  simp only [Pattern.many, if_pos capital, List.flatMap_append, List.flatMap_map, List.map_flatMap,
    List.flatMap_singleton, List.map_map]
  rfl

theorem acronymEnd_cons_of_neg (other : isCapital c = false) : acronymEnd (c :: rest) = [] := by
  rw [acronymEnd, Pattern.andThen, Pattern.many_cons_of_neg other, List.flatMap_nil]

theorem acronymEnd_run {run : List Char} {last : Char} (nonempty : run ≠ [])
    (capitals : ∀ c ∈ run, isCapital c = true) (capital : isCapital last = true)
    (small : isSmall d = true) :
    acronymEnd (run ++ last :: d :: rest) = [((run, last, d), rest)] := by
  induction run with
  | nil => exact absurd rfl nonempty
  | cons c run ih =>
    rw [List.forall_mem_cons] at capitals
    rw [List.cons_append, acronymEnd_cons capitals.1]
    cases run with
    | nil =>
      have noCapital := not_isCapital_of_isSmall small
      have later : acronymEnd (last :: d :: rest) = [] := by
        rw [acronymEnd_cons capital, acronymEnd_cons_of_neg noCapital,
          Pattern.andThen_one_of_neg noCapital]
        rfl
      rw [List.nil_append, later, Pattern.andThen_one_one capital small]
      rfl
    | cons c' run =>
      have noSmall : Pattern.andThen (.one isCapital) (.one isSmall)
          (c' :: run ++ last :: d :: rest) = [] := by
        cases run with
        | nil => exact Pattern.andThen_one_eq_nil (Pattern.one_cons_of_neg (not_isSmall_of_isCapital capital))
        | cons c'' run =>
          have next : isCapital c'' = true := capitals.2 c'' (by simp)
          exact Pattern.andThen_one_eq_nil (Pattern.one_cons_of_neg (not_isSmall_of_isCapital next))
      rw [ih (List.cons_ne_nil c' run) capitals.2, noSmall]
      rfl

theorem acronymEnd_eq_nil {run : List Char} (capitals : ∀ c ∈ run, isCapital c = true)
    (stops : ∀ c ∈ rest.head?, isCapital c = false)
    (other : run.length < 2 ∨ ∀ c ∈ rest.head?, isSmall c = false) :
    acronymEnd (run ++ rest) = [] := by
  induction run with
  | nil =>
    cases rest with
    | nil => rfl
    | cons d rest => exact acronymEnd_cons_of_neg (stops d rfl)
  | cons c run ih =>
    rw [List.forall_mem_cons] at capitals
    have later := ih capitals.2 (other.imp_left Nat.lt_of_succ_lt)
    rw [List.cons_append, acronymEnd_cons capitals.1, later]
    suffices none : Pattern.andThen (.one isCapital) (.one isSmall) (run ++ rest) = [] by
      rw [none]
      rfl
    match run with
    | [] =>
      cases rest with
      | nil => rfl
      | cons d rest => exact Pattern.andThen_one_of_neg (stops d rfl)
    | [c'] =>
      cases rest with
      | nil => exact Pattern.andThen_one_eq_nil rfl
      | cons d rest =>
        have notSmall := other.resolve_left (by simp)
        exact Pattern.andThen_one_eq_nil (Pattern.one_cons_of_neg (notSmall d rfl))
    | c' :: c'' :: run =>
      have next : isCapital c'' = true := capitals.2 c'' (by simp)
      exact Pattern.andThen_one_eq_nil (Pattern.one_cons_of_neg (not_isSmall_of_isCapital next))

theorem substituted_acronyms (runs : SplitRuns cs out) : Substituted acronymEnd spacedAcronym cs out := by
  induction runs with
  | done => exact .done
  | @split run rest out last d nonempty capitals capital small _ ih =>
    have way : (acronymEnd (run ++ last :: d :: rest)).head? = some ((run, last, d), rest) := by
      rw [acronymEnd_run nonempty capitals capital small]
      rfl
    have whole : Substituted acronymEnd spacedAcronym (run ++ last :: d :: rest)
        (spacedAcronym (run, last, d) ++ out) := .found way ih
    rwa [spacedAcronym, List.append_assoc] at whole
  | @whole run rest out capitals stops other _ ih =>
    refine Substituted.passed_run (fun suffix _ isSuffix => ?_) ih
    refine acronymEnd_eq_nil (fun c member => capitals c (isSuffix.subset member)) stops ?_
    exact other.imp_left (Nat.lt_of_le_of_lt isSuffix.length_le)
  | other notCapital _ ih => exact .passed (acronymEnd_cons_of_neg notCapital) ih

theorem substituted_words (cs : List Char) : Substituted wordEnd spacedWord cs (splitWords cs) := by
  fun_induction splitWords cs with
  | case1 a b rest both ih =>
    rw [Bool.and_eq_true] at both
    have way : (wordEnd (a :: b :: rest)).head? = some ((a, b), rest) := by
      rw [wordEnd, Pattern.andThen_one_one both.1 both.2]
      rfl
    exact .found way ih
  | case2 a b rest not_both ih =>
    refine .passed ?_ ih
    rcases Bool.and_eq_false_iff.mp (by simpa using not_both) with first | second
    · exact Pattern.andThen_one_of_neg first
    · exact Pattern.andThen_one_eq_nil (Pattern.one_cons_of_neg second)
  | case3 cs short =>
    cases cs with
    | nil => exact .done
    | cons c rest =>
      cases rest with
      | nil => exact .passed (Pattern.andThen_one_eq_nil rfl) .done
      | cons b rest => exact absurd rfl (short c b rest)

theorem squeezeUnderscores_underscore (rest : List Char) : squeezeUnderscores ('_' :: rest) =
    '_' :: squeezeUnderscores (rest.dropWhile isUnderscore) := by
  induction rest with
  | nil => rfl
  | cons c rest ih =>
    by_cases underscore : c = '_'
    · subst underscore
      rw [squeezeUnderscores, ih, List.dropWhile_cons_of_pos (by decide)]
    · rw [List.dropWhile_cons_of_neg (by simpa [isUnderscore] using underscore), squeezeUnderscores]
      simpa using underscore

theorem squeezeUnderscores_other (other : c ≠ '_') :
    squeezeUnderscores (c :: rest) = c :: squeezeUnderscores rest := by
  rw [squeezeUnderscores]
  exact fun _ same => absurd same other

theorem substituted_underscores (cs : List Char) :
    Substituted underscores (fun _ => ['_']) cs (squeezeUnderscores cs) := by
  induction size : cs.length using Nat.strong_induction_on generalizing cs with
  | _ n ih =>
  subst size
  cases cs with
  | nil => exact .done
  | cons c rest =>
    have later := ih _ (Nat.lt_succ_self _) rest rfl
    by_cases underscore : c = '_'
    · subst underscore
      have isOne : isUnderscore '_' = true := rfl
      rw [squeezeUnderscores_underscore]
      cases rest with
      | nil => exact .passed (Pattern.andThen_one_eq_nil rfl) .done
      | cons next rest =>
        by_cases again : isUnderscore next = true
        · have way : (underscores ('_' :: next :: rest)).head? =
              some (('_', next :: rest.takeWhile isUnderscore), rest.dropWhile isUnderscore) := by
            rw [underscores, Pattern.andThen_one isOne, List.head?_map, Pattern.head?_many again]
            rfl
          have within := (List.dropWhile_sublist isUnderscore (l := rest)).length_le
          have behind := ih _ (Nat.lt_succ_of_lt (Nat.lt_succ_of_le within)) _ rfl
          rw [List.dropWhile_cons_of_pos again]
          exact .found (x := ('_', next :: rest.takeWhile isUnderscore)) way behind
        · have none : underscores ('_' :: next :: rest) = [] :=
            Pattern.andThen_one_eq_nil (Pattern.many_cons_of_neg (by simpa using again))
          rw [List.dropWhile_cons_of_neg again]
          exact .passed none later
    · rw [squeezeUnderscores_other underscore]
      exact .passed (Pattern.andThen_one_of_neg (by simpa [isUnderscore] using underscore)) later

end Substitution

section Pass

abbrev Boundary := Option Char → Char → Option Char → Bool

/-- A capital behind a small letter or a digit. -/
def behindWord : Boundary := fun before c _ => isCapital c && before.any isSmallOrDigit

/-- A capital behind another one and before a small letter. -/
def behindAcronym : Boundary := fun before c after =>
  isCapital c && before.any isCapital && after.any isSmall

def startsWord : Boundary := fun before c after => behindWord before c after || behindAcronym before c after

def separate (isStart : Boundary) (before : Option Char) : List Char → List Char
  | [] => []
  | c :: rest =>
    (if isStart before c rest.head? then ['_', c] else [c]) ++ separate isStart (some c) rest

def Unlike (c d : Char) : Prop := ¬ (c = '_' ∧ d = '_')

instance : DecidableRel Unlike := fun c d => inferInstanceAs (Decidable (¬ (c = '_' ∧ d = '_')))

def joinRuns (cs : List Char) : List Char := cs.destutter Unlike

variable {isStart : Boundary} {before : Option Char}

theorem separate_of_not_start (fails : isStart before c rest.head? = false) :
    separate isStart before (c :: rest) = c :: separate isStart (some c) rest := by
  rw [separate, fails]
  rfl

theorem separate_of_start (holds : isStart before c rest.head? = true) :
    separate isStart before (c :: rest) = '_' :: c :: separate isStart (some c) rest := by
  rw [separate, holds]
  rfl

theorem separate_capitals {run : List Char} (capitals : ∀ c ∈ run, isCapital c = true)
    (notSmall : ∀ c ∈ rest.head?, isSmall c = false) :
    separate behindAcronym before (run ++ rest) =
      run ++ separate behindAcronym (run.getLast?.or before) rest := by
  induction run generalizing before with
  | nil => rfl
  | cons c run ih =>
    rw [List.forall_mem_cons] at capitals
    have behind : (run ++ rest).head?.any isSmall = false := by
      cases run with
      | nil =>
        cases rest with
        | nil => rfl
        | cons d rest => exact notSmall d rfl
      | cons c' run => exact not_isSmall_of_isCapital (capitals.2 c' List.mem_cons_self)
    have last : (c :: run).getLast?.or before = run.getLast?.or (some c) := by
      rw [List.getLast?_cons]
      cases run.getLast? <;> rfl
    have inside : behindAcronym before c (run ++ rest).head? = false := by
      rw [behindAcronym, behind, Bool.and_false]
    rw [List.cons_append, separate_of_not_start inside, ih capitals.2, last]
    rfl

theorem separate_acronyms (runs : SplitRuns cs out)
    (apart : before.any isCapital = false ∨ cs.head?.any isCapital = false) :
    separate behindAcronym before cs = out := by
  induction runs generalizing before with
  | done => rfl
  | @split run rest out last d nonempty capitals capital small _ ih =>
    obtain ⟨final, isFinal⟩ := Option.ne_none_iff_exists'.mp (List.getLast?_eq_none_iff.not.mpr nonempty)
    have finalCapital : isCapital final = true := capitals final (List.mem_of_getLast? isFinal)
    have notCapital := not_isCapital_of_isSmall small
    rw [separate_capitals capitals (by simpa using not_isSmall_of_isCapital capital), isFinal,
      Option.some_or, separate_of_start (by simp [behindAcronym, capital, finalCapital, small]),
      separate_of_not_start (by simp [behindAcronym, notCapital]), ih (.inl (by simpa using notCapital))]
  | @whole run rest out capitals stops other _ ih =>
    have none : rest.head?.any isCapital = false := by
      cases rest with
      | nil => rfl
      | cons d rest => exact stops d rfl
    rcases other with short | notSmall
    · match run with
      | [] => exact ih (.inr none)
      | [c] =>
        have first : before.any isCapital = false := apart.resolve_right (by simp [capitals c])
        rw [List.cons_append, separate_of_not_start (by simp [behindAcronym, first])]
        exact congrArg (c :: ·) (ih (.inr none))
      | c :: c' :: run => exact absurd short (by simp)
    · rw [separate_capitals capitals notSmall, ih (.inr none)]
  | other notCapital _ ih =>
    rw [separate_of_not_start (by simp [behindAcronym, notCapital]), ih (.inl (by simpa using notCapital))]

theorem separate_word_cons (apart : before.any isSmallOrDigit = false ∨ isCapital c = false) :
    separate behindWord before (c :: rest) = c :: separate behindWord (some c) rest := by
  refine separate_of_not_start ?_
  rcases apart with noWord | notCapital
  · simp [behindWord, noWord]
  · simp [behindWord, notCapital]

theorem separate_words (apart : before.any isSmallOrDigit = false ∨ cs.head?.any isCapital = false) :
    separate behindWord before cs = splitWords cs := by
  fun_induction splitWords cs generalizing before with
  | case1 a b rest both ih =>
    rw [Bool.and_eq_true] at both
    rw [separate_word_cons apart, separate_of_start (by simp [behindWord, both]),
      ih (.inl (by simpa using not_isSmallOrDigit_of_isCapital both.2))]
  | case2 a b rest not_both ih =>
    rw [separate_word_cons apart, ih (Bool.and_eq_false_iff.mp (by simpa using not_both))]
  | case3 cs short =>
    cases cs with
    | nil => rfl
    | cons c rest =>
      cases rest with
      | nil => exact separate_word_cons apart
      | cons b rest => exact absurd rfl (short c b rest)

/-- What was put before an acronym's last capital changes no boundary behind a word. -/
theorem separate_twice (before : Option Char) (cs : List Char) :
    separate behindWord before (separate behindAcronym before cs) = separate startsWord before cs := by
  induction cs generalizing before with
  | nil => rfl
  | cons c rest ih =>
    by_cases acronym : behindAcronym before c rest.head? = true
    · have whole : startsWord before c rest.head? = true := by simp [startsWord, acronym]
      have underscore (next : Option Char) : behindWord before '_' next = false := rfl
      have behind (next : Option Char) : behindWord (some '_') c next = false := by
        simp [behindWord, show isSmallOrDigit '_' = false from rfl]
      rw [separate_of_start acronym, separate_of_start whole, separate_of_not_start (underscore _),
        separate_of_not_start (behind _), ih]
    · have plain : behindAcronym before c rest.head? = false := by simpa using acronym
      have whole (next : Option Char) : behindWord before c next = startsWord before c rest.head? := by
        rw [startsWord, plain, Bool.or_false]
        rfl
      rw [separate_of_not_start plain, separate, separate, whole, ih]

theorem squeezeUnderscores_eq (cs : List Char) : squeezeUnderscores cs = joinRuns cs := by
  fun_induction squeezeUnderscores cs with
  | case1 rest ih =>
    rw [ih, joinRuns, joinRuns, List.destutter_cons_cons, if_neg (by simp [Unlike])]
    rfl
  | case2 c rest other ih =>
    rw [ih]
    cases rest with
    | nil => rfl
    | cons d rest =>
      have unlike : Unlike c d := fun same => other rest same.1 (by rw [same.2])
      rw [joinRuns, joinRuns, List.destutter_cons_cons, if_pos unlike]
      rfl
  | case3 => rfl

theorem separate_eq_self (noCapital : ∀ c ∈ cs, isCapital c = false) :
    separate startsWord before cs = cs := by
  induction cs generalizing before with
  | nil => rfl
  | cons c rest ih =>
    rw [List.forall_mem_cons] at noCapital
    rw [separate_of_not_start (by simp [startsWord, behindWord, behindAcronym, noCapital.1]),
      ih noCapital.2]

theorem splitAll_eq (cs : List Char) : squeezeUnderscores (splitWords (splitAcronyms cs)) =
    joinRuns (separate startsWord none cs) := by
  have acronyms : separate behindAcronym none cs = splitAcronyms cs :=
    separate_acronyms (splitRuns_splitAcronyms cs) (.inl rfl)
  have words : separate behindWord none (splitAcronyms cs) = splitWords (splitAcronyms cs) :=
    separate_words (.inl rfl)
  rw [squeezeUnderscores_eq, ← words, ← acronyms, separate_twice]

theorem separated_iff : Separated cs out ↔ out = joinRuns (separate startsWord none cs) := by
  rw [← splitAll_eq]
  have acronyms := substituted_acronyms (splitRuns_splitAcronyms cs)
  have words := substituted_words (splitAcronyms cs)
  have squeezed := substituted_underscores (splitWords (splitAcronyms cs))
  constructor
  · rintro ⟨a, w, first, second, third⟩
    cases first.unique rfl acronyms
    cases second.unique rfl words
    exact third.unique rfl squeezed
  · rintro rfl
    exact ⟨_, _, acronyms, words, squeezed⟩

section Letters

theorem letters_separate : (separate isStart before cs).filter (· ≠ '_') = cs.filter (· ≠ '_') := by
  induction cs generalizing before with
  | nil => rfl
  | cons c rest ih =>
    by_cases start : isStart before c rest.head? = true
    · rw [separate_of_start start, List.filter_cons_of_neg (by decide), List.filter_cons,
        List.filter_cons, ih]
    · rw [separate_of_not_start (by simpa using start), List.filter_cons, List.filter_cons, ih]

theorem letters_joinRuns : (joinRuns cs).filter (· ≠ '_') = cs.filter (· ≠ '_') := by
  cases cs with
  | nil => rfl
  | cons c rest =>
    show (rest.destutter' Unlike c).filter (· ≠ '_') = _
    induction rest generalizing c with
    | nil => rfl
    | cons d rest ih =>
      by_cases unlike : Unlike c d
      · rw [List.destutter'_cons_pos _ unlike, List.filter_cons, ih, List.filter_cons (x := c)]
      · have both : c = '_' ∧ d = '_' := not_not.mp unlike
        rw [List.destutter'_cons_neg _ unlike, ih, both.1, both.2]
        rfl

theorem letters_toLower : (cs.map Char.toLower).filter (· ≠ '_') =
    (cs.filter (· ≠ '_')).map Char.toLower := by
  have kept (c : Char) : c.toLower = '_' ↔ c = '_' :=
    ⟨not_imp_not.mp toLower_ne_underscore, fun same => by rw [same]; rfl⟩
  rw [List.filter_map]
  refine congrArg (List.map Char.toLower) (List.filter_congr fun c _ => ?_)
  simp [kept]

end Letters

section Again

theorem unlike_toLower {c d : Char} (unlike : Unlike c d) : Unlike c.toLower d.toLower := by
  rintro ⟨first, second⟩
  exact unlike ⟨not_imp_not.mp toLower_ne_underscore first, not_imp_not.mp toLower_ne_underscore second⟩

theorem toLower_of_isSnakeChar (snake : isSnakeChar c = true) : c.toLower = c ∧ isCapital c = false := by
  have all := forall_ascii (p := fun c => !isSnakeChar c || (c.toLower == c && !isCapital c)) (by decide)
    (ascii_of_isWordChar (isWordChar_of_isSnakeChar snake))
  simpa [snake] using all

theorem snakeCase_eq_self {s : String} (snake : IsSnake s) (apart : s.toList.IsChain Unlike) :
    snakeCase s = s := by
  have word : IsWord s := fun c member => isWordChar_of_isSnakeChar (snake c member)
  have lowered : s.toList.map Char.toLower = s.toList :=
    (List.map_congr_left fun c member => (toLower_of_isSnakeChar (snake c member)).1).trans (List.map_id _)
  rw [← String.toList_inj, toList_snakeCase word, splitAll_eq,
    separate_eq_self fun c member => (toLower_of_isSnakeChar (snake c member)).2, joinRuns,
    List.destutter_of_isChain _ _ apart, lowered]

theorem snakeCase_isChain {s : String} (word : IsWord s) : (snakeCase s).toList.IsChain Unlike := by
  rw [toList_snakeCase word, splitAll_eq, List.isChain_map]
  exact (List.isChain_destutter _ _).imp fun _ _ => unlike_toLower

end Again

/-- Snake case, which is reached by three substitutions after each other, is one pass over the name. It
    loses no letter and no digit, and a second time it changes nothing. -/
theorem snakeCase_single_pass {s : String} (word : IsWord s) :
    (∀ out, Separated s.toList out ↔ out = joinRuns (separate startsWord none s.toList)) ∧
    snakeCase s = Unicode.lower (String.ofList (joinRuns (separate startsWord none s.toList))) ∧
    (snakeCase s).toList.filter (· ≠ '_') = (s.toList.filter (· ≠ '_')).map Char.toLower ∧
    snakeCase (snakeCase s) = snakeCase s := by
  refine ⟨fun out => separated_iff, ?_, ?_, ?_⟩
  · rw [← splitAll_eq]
    rfl
  · rw [toList_snakeCase word, splitAll_eq, letters_toLower, letters_joinRuns, letters_separate]
  · exact snakeCase_eq_self (isSnake_snakeCase word) (snakeCase_isChain word)

theorem httpInfo_single_pass : IsWord "GetHTTPInfo__V2Request" ∧
    Separated "GetHTTPInfo__V2Request".toList "Get_HTTP_Info_V2_Request".toList ∧
    snakeCase "GetHTTPInfo__V2Request" = "get_http_info_v2_request" ∧
    snakeCase "get_http_info_v2_request" = "get_http_info_v2_request" := by
  have word : IsWord "GetHTTPInfo__V2Request" := by decide
  obtain ⟨substituted, pass, _, again⟩ := snakeCase_single_pass word
  have joined : joinRuns (separate startsWord none "GetHTTPInfo__V2Request".toList) =
      "Get_HTTP_Info_V2_Request".toList := by decide
  have lowered : snakeCase "GetHTTPInfo__V2Request" = "get_http_info_v2_request" := by
    rw [pass, joined]
    decide
  rw [lowered] at again
  exact ⟨word, (substituted _).mpr joined.symm, lowered, again⟩

end Pass

end ProtoBindings.Name
