import Mathlib.Data.List.Basic
import ProtoBindings.Json.Token
import ProtoBindings.Text.Quotation

namespace ProtoBindings.Text

open Json (hexDigit?)

section Reading

def isBare (c : Char) : Bool := c ≠ '\n' && c ≠ '\r' && c ≠ '\x00'

/-- What stands before the closing quote and what behind it, given what follows the opening one. The
    character after a backslash neither closes the literal nor breaks the line, and the two characters
    of a line break count as one. -/
def literalBody : List Char → Option (List Char × List Char)
  | [] => none
  | '"' :: rest => some ([], rest)
  | '\\' :: '\r' :: '\n' :: rest =>
    (literalBody rest).map fun (body, left) => ('\\' :: '\r' :: '\n' :: body, left)
  | '\\' :: c :: rest =>
    if c = '\x00' then none
    else (literalBody rest).map fun (body, left) => ('\\' :: c :: body, left)
  | c :: rest =>
    if isBare c then (literalBody rest).map fun (body, left) => (c :: body, left) else none

def shortEscapes : List (Char × Char) :=
  [('\\', '\\'), ('\'', '\''), ('"', '"'), ('a', '\x07'), ('b', '\x08'), ('t', '\t'), ('n', '\n'),
    ('v', '\x0b'), ('f', '\x0c'), ('r', '\r')]

def isOctalDigit (c : Char) : Bool := '0' ≤ c && c ≤ '7'

def octalCode (digits : List Char) : Nat := digits.foldl (fun code c => 8 * code + (c.toNat - '0'.toNat)) 0

/-- The code of exactly so many hexadecimal digits. -/
def hexCode? (count : Nat) (cs : List Char) : Option Nat :=
  if cs.length < count then none
  else ((cs.take count).mapM hexDigit?).map fun digits => digits.foldl (16 * · + ·) 0

/-- What an escape stands for and how many characters it takes behind its backslash. A backslash with no
    escape behind it stands for itself. The names of characters are those that `named` knows. -/
def escape? (named : String → Option Nat) : List Char → Option (CodePoints × Nat)
  | [] => none
  | '\r' :: '\n' :: _ => some ([], 2)
  | '\n' :: _ | '\r' :: _ => some ([], 1)
  | 'x' :: rest => (hexCode? 2 rest).map fun code => ([code], 3)
  | 'u' :: rest => (hexCode? 4 rest).map fun code => ([code], 5)
  | 'U' :: rest =>
    ((hexCode? 8 rest).filter fun code => decide (code < 0x110000)).map fun code => ([code], 9)
  | 'N' :: '\x7b' :: rest =>
    let name := rest.takeWhile (· ≠ '\x7d')
    if name.length = rest.length then none
    else (named (String.ofList name)).map fun code => ([code], name.length + 3)
  | 'N' :: _ => none
  | c :: rest =>
    if isOctalDigit c then
      let digits := (c :: rest.take 2).takeWhile isOctalDigit
      some ([octalCode digits], digits.length)
    else
      match shortEscapes.lookup c with
      | some meant => some ([meant.toNat], 1)
      | none => some (['\\'.toNat], 0)

/-- What stands between the quotes with its escapes replaced, behind as many characters as belong to an
    escape already replaced. -/
def unescape (named : String → Option Nat) : (taken : Nat) → List Char → Option CodePoints
  | _, [] => some []
  | taken + 1, _ :: rest => unescape named taken rest
  | 0, '\\' :: rest =>
    (escape? named rest).bind fun (codes, taken) => (unescape named taken rest).map (codes ++ ·)
  | 0, c :: rest => (unescape named 0 rest).map (c.toNat :: ·)

/-- Reads the literal that a source starts with: the text that it stands for, and what follows it. Three
    quotes open a literal of another kind, which may have several lines. -/
def readLiteral (named : String → Option Nat) : List Char → Option (CodePoints × List Char)
  | '"' :: '"' :: '"' :: _ => none
  | '"' :: rest =>
    (literalBody rest).bind fun (body, left) => (unescape named 0 body).map fun codes => (codes, left)
  | _ => none

end Reading

example : readLiteral (fun _ => none) "\"\\x41\\1012\\d\" + \"\"".toList =
    some (CodePoints.ofText "AA2\\d", " + \"\"".toList) := by decide +kernel

section Writing

variable {c : Char} {cs : List Char}

@[elab_as_elim]
theorem escaping_cases {motive : Char → Prop} (backslash : motive '\\') (quote : motive '"')
    (other : ∀ c, c ≠ '\\' → c ≠ '"' → motive c) (c : Char) : motive c := by
  by_cases isBackslash : c = '\\'
  · exact isBackslash ▸ backslash
  · by_cases isQuote : c = '"'
    · exact isQuote ▸ quote
    · exact other c isBackslash isQuote

theorem literalChar_of_other (backslash : c ≠ '\\') (quote : c ≠ '"') : literalChar c = [c] :=
  if_neg (not_or.mpr ⟨backslash, quote⟩)

def escapeEach (escaped : Char) (cs : List Char) : List Char :=
  cs.flatMap fun c => if c = escaped then ['\\', c] else [c]

/-- The escapes of a literal are put in by two replacements one after the other. Backslashes come first,
    so that those of the quotes are not escaped again. -/
theorem literal_eq (s : String) :
    literal s = String.ofList ('"' :: escapeEach '"' (escapeEach '\\' s.toList) ++ ['"']) := by
  rw [literal, escapeEach, escapeEach, List.flatMap_assoc]
  suffices each : ∀ c, literalChar c = List.flatMap
      (fun c => if c = '"' then ['\\', c] else [c]) (if c = '\\' then ['\\', c] else [c]) by
    rw [List.flatMap_congr fun c _ => each c]
  intro c
  induction c using escaping_cases with
  | backslash => rfl
  | quote => rfl
  | other c backslash quote =>
    rw [literalChar_of_other backslash quote, if_neg backslash, List.flatMap_singleton, if_neg quote]

end Writing

section RoundTrip

variable {c : Char} {cs rest : List Char}

theorem literalBody_other (backslash : c ≠ '\\') (quote : c ≠ '"') : literalBody (c :: rest) =
    if isBare c then (literalBody rest).map fun (body, left) => (c :: body, left) else none := by
  rw [literalBody]
  · exact fun same => absurd same quote
  · exact fun _ same => absurd same backslash
  · exact fun _ _ same => absurd same backslash

theorem literalBody_bare (bare : isBare c = true) (rest : List Char) :
    literalBody (literalChar c ++ rest) =
      (literalBody rest).map fun (body, left) => (literalChar c ++ body, left) := by
  induction c using escaping_cases with
  | backslash => rfl
  | quote => rfl
  | other c backslash quote =>
    rw [literalChar_of_other backslash quote, List.singleton_append, literalBody_other backslash quote,
      if_pos bare]
    rfl

theorem literalBody_unbare (unbare : isBare c = false) (rest : List Char) :
    literalBody (literalChar c ++ rest) = none := by
  induction c using escaping_cases with
  | backslash => cases unbare
  | quote => cases unbare
  | other c backslash quote =>
    rw [literalChar_of_other backslash quote, List.singleton_append, literalBody_other backslash quote,
      unbare, if_neg Bool.false_ne_true]

theorem literalBody_escaped (bare : ∀ c ∈ cs, isBare c = true) (rest : List Char) :
    literalBody (cs.flatMap literalChar ++ '"' :: rest) = some (cs.flatMap literalChar, rest) := by
  induction cs with
  | nil => rfl
  | cons c cs ih =>
    rw [List.forall_mem_cons] at bare
    rw [List.flatMap_cons, List.append_assoc, literalBody_bare bare.1, ih bare.2]
    rfl

theorem literalBody_broken (broken : ∃ c ∈ cs, isBare c = false) (rest : List Char) :
    literalBody (cs.flatMap literalChar ++ rest) = none := by
  induction cs with
  | nil => simp at broken
  | cons c cs ih =>
    rw [List.flatMap_cons, List.append_assoc]
    cases bare : isBare c with
    | false => exact literalBody_unbare bare _
    | true =>
      rw [List.exists_mem_cons_iff, bare] at broken
      rw [literalBody_bare bare, ih (broken.resolve_left Bool.false_ne_true.symm)]
      rfl

variable (named : String → Option Nat)

theorem unescape_literalChar (c : Char) (rest : List Char) :
    unescape named 0 (literalChar c ++ rest) = (unescape named 0 rest).map (c.toNat :: ·) := by
  induction c using escaping_cases with
  | backslash => rfl
  | quote => rfl
  | other c backslash quote =>
    rw [literalChar_of_other backslash quote, List.singleton_append, unescape]
    exact backslash

theorem unescape_escaped (cs : List Char) :
    unescape named 0 (cs.flatMap literalChar) = some (cs.map Char.toNat) := by
  induction cs with
  | nil => rfl
  | cons c cs ih =>
    rw [List.flatMap_cons, unescape_literalChar, ih]
    rfl

theorem readLiteral_quote (notLong : ¬ ['"', '"'] <+: rest) : readLiteral named ('"' :: rest) =
    (literalBody rest).bind fun (body, left) =>
      (unescape named 0 body).map fun codes => (codes, left) := by
  rw [readLiteral]
  rintro left rfl
  exact notLong ⟨left, rfl⟩

theorem escaped_opens_short (short : cs ≠ [] ∨ rest.head? ≠ some '"') :
    ¬ ['"', '"'] <+: cs.flatMap literalChar ++ '"' :: rest := by
  cases cs with
  | nil =>
    rintro ⟨left, same⟩
    cases same
    exact short.elim (absurd rfl) (absurd rfl)
  | cons c cs =>
    rw [List.flatMap_cons]
    rintro ⟨left, same⟩
    induction c using escaping_cases with
    | backslash => cases same
    | quote => cases same
    | other c backslash quote =>
      rw [literalChar_of_other backslash quote] at same
      exact quote (List.cons_eq_cons.mp same).1.symm

def OneLine (s : String) : Prop := ∀ c ∈ s.toList, c ≠ '\n' ∧ c ≠ '\r' ∧ c ≠ '\x00'

theorem oneLine_iff {s : String} : OneLine s ↔ ∀ c ∈ s.toList, isBare c = true := by
  simp [OneLine, isBare, and_assoc]

variable {s : String}

/-- A literal ends at its last quote, whatever the source goes on with, but for a quote behind two. -/
theorem readLiteral_literal_append (oneLine : OneLine s) (short : s ≠ "" ∨ rest.head? ≠ some '"') :
    readLiteral named ((literal s).toList ++ rest) = some (CodePoints.ofText s, rest) := by
  have shape : (literal s).toList ++ rest = '"' :: (s.toList.flatMap literalChar ++ '"' :: rest) := by
    simp [literal]
  have notLong : ¬ ['"', '"'] <+: s.toList.flatMap literalChar ++ '"' :: rest :=
    escaped_opens_short (by simpa using short)
  rw [shape, readLiteral_quote named notLong, literalBody_escaped (oneLine_iff.mp oneLine)]
  simp only [Option.bind_some, unescape_escaped, Option.map_some, CodePoints.ofText]

theorem readLiteral_literal_eq_none (broken : ¬ OneLine s) :
    readLiteral named (literal s).toList = none := by
  have unbare : ∃ c ∈ s.toList, isBare c = false := by simpa [oneLine_iff] using broken
  have nonempty : s.toList ≠ [] := by
    intro empty
    simp [empty] at unbare
  have shape : (literal s).toList = '"' :: (s.toList.flatMap literalChar ++ '"' :: []) := by
    simp [literal]
  rw [shape, readLiteral_quote named (escaped_opens_short (.inl nonempty)), literalBody_broken unbare]
  rfl

/-- A literal is written by two replacements. The texts that are read back from their literals, with nothing
    left of the literal, are those that stay on one line. The literals of others are refused. -/
theorem readLiteral_literal_iff (s : String) :
    literal s = String.ofList ('"' :: escapeEach '"' (escapeEach '\\' s.toList) ++ ['"']) ∧
    (readLiteral named (literal s).toList = some (CodePoints.ofText s, []) ↔ OneLine s) := by
  refine ⟨literal_eq s, ?_⟩
  constructor
  · intro read
    by_contra broken
    rw [readLiteral_literal_eq_none named broken] at read
    cases read
  · intro oneLine
    have none : ([] : List Char).head? ≠ some '"' := by simp
    have whole := readLiteral_literal_append named oneLine (.inr none)
    rwa [List.append_nil] at whole

end RoundTrip

end ProtoBindings.Text
