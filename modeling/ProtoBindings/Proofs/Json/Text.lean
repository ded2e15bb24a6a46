import ProtoBindings.Proofs.Json.Parse

namespace ProtoBindings.Json

open Number (digitsValue isDigit signedBy withMinus)
open Text (CodePoints)

/-- How a string holds codes: as they are, behind a backslash, or as four hexadecimal digits. -/
inductive Spelled : CodePoints → List Char → Prop
  | nil : Spelled [] []
  | plain {c codes cs} : 0x20 ≤ c.toNat → c ≠ '"' → c ≠ '\\' → Spelled codes cs →
      Spelled (c.toNat :: codes) (c :: cs)
  | escape {c code codes cs} : escaped? c = some code → Spelled codes cs →
      Spelled (code :: codes) ('\\' :: c :: cs)
  | hex {digits code codes cs} : digits.length = 4 →
      (digits.mapM hexDigit?).map (·.foldl (· * 16 + ·) 0) = some code → Spelled codes cs →
      Spelled (code :: codes) ('\\' :: 'u' :: (digits ++ cs))

section String

variable {cs body rest : List Char} {codes : CodePoints} {used code : Nat}

theorem after_eq_ok {read : StringRead} {more : Nat} {first : CodePoints} :
    read.after more first = .ok (codes, used) ↔
      ∃ later n, read = .ok (later, n) ∧ codes = first ++ later ∧ used = more + n := by
  cases read with
  | ok found =>
    obtain ⟨later, n⟩ := found
    simp only [StringRead.after, Except.ok.injEq, Prod.mk.injEq]
    constructor
    · rintro ⟨rfl, rfl⟩
      exact ⟨later, n, ⟨rfl, rfl⟩, rfl, rfl⟩
    · rintro ⟨_, _, ⟨rfl, rfl⟩, rfl, rfl⟩
      exact ⟨rfl, rfl⟩
  | error e => simp [StringRead.after]

theorem hexCode?_digits {digits : List Char} (length : digits.length = 4) (present : rest ≠ []) :
    hexCode? (digits ++ rest) = (digits.mapM hexDigit?).map (·.foldl (· * 16 + ·) 0) := by
  have more := List.length_pos_iff.mpr present
  rw [hexCode?, if_neg (by rw [List.length_append]; omega), List.take_left' length]

theorem exists_of_hexCode? (found : hexCode? cs = some code) : ∃ digits rest, cs = digits ++ rest ∧
    digits.length = 4 ∧ (digits.mapM hexDigit?).map (·.foldl (· * 16 + ·) 0) = some code := by
  rw [hexCode?] at found
  split at found
  · cases found
  · exact ⟨cs.take 4, cs.drop 4, (List.take_append_drop 4 cs).symm, by rw [List.length_take]; omega, found⟩

theorem readString_plain {c : Char} (visible : 0x20 ≤ c.toNat) (noQuote : c ≠ '"') (noSlash : c ≠ '\\') :
    readString (c :: cs) = (readString cs).after 1 [c.toNat] := by
  rw [readString.eq_6 c cs (fun same _ => noSlash same) noQuote (fun _ same _ => noSlash same)
    (fun _ _ same _ => noSlash same), if_neg (Nat.not_lt.mpr visible)]

theorem readString_escape {c : Char} (known : escaped? c = some code) :
    readString ('\\' :: c :: cs) = (readString cs).after 2 [code] := by
  have other : c ≠ 'u' := by
    rintro rfl
    cases known
  rw [readString.eq_5 c cs other, known]

theorem readString_hex {digits : List Char} (length : digits.length = 4)
    (value : (digits.mapM hexDigit?).map (·.foldl (· * 16 + ·) 0) = some code) (present : cs ≠ []) :
    readString ('\\' :: 'u' :: (digits ++ cs)) = (readString cs).after 6 [code] := by
  rw [readString.eq_4, hexCode?_digits length present, value]
  dsimp only
  rw [List.drop_left' length]

theorem spelled_of_readString (read : readString cs = .ok (codes, used)) :
    ∃ body rest, cs = body ++ '"' :: rest ∧ Spelled codes body ∧ used = body.length + 1 := by
  induction cs using readString.induct generalizing codes used with
  | case1 | case2 =>
    rw [readString] at read
    cases read
  | case3 rest =>
    rw [readString] at read
    cases read
    exact ⟨[], rest, rfl, .nil, rfl⟩
  | case4 rest code found ih =>
    rw [readString, found] at read
    obtain ⟨later, n, inside, rfl, rfl⟩ := after_eq_ok.mp read
    obtain ⟨digits, after, rfl, length, value⟩ := exists_of_hexCode? found
    rw [List.drop_left' length] at ih inside
    obtain ⟨body, rest, rfl, spelled, rfl⟩ := ih inside
    refine ⟨'\\' :: 'u' :: (digits ++ body), rest, by simp, .hex length value spelled, ?_⟩
    simp only [List.length_cons, List.length_append, length]
    omega
  | case5 rest none =>
    rw [readString, none] at read
    cases read
  | case6 c rest other code known ih =>
    rw [readString_escape known] at read
    obtain ⟨later, n, inside, rfl, rfl⟩ := after_eq_ok.mp read
    obtain ⟨body, rest, rfl, spelled, rfl⟩ := ih inside
    refine ⟨'\\' :: c :: body, rest, rfl, .escape known spelled, ?_⟩
    simp only [List.length_cons]
    omega
  | case7 c rest other none =>
    rw [readString.eq_5 c rest other, none] at read
    cases read
  | case8 c rest noEnd noQuote noHex noEscape control =>
    rw [readString.eq_6 c rest noEnd noQuote noHex noEscape, if_pos control] at read
    cases read
  | case9 c rest noEnd noQuote noHex noEscape visible ih =>
    have noSlash : c ≠ '\\' := by
      rintro rfl
      cases rest with
      | nil => exact noEnd rfl rfl
      | cons d rest => exact noEscape d rest rfl rfl
    rw [readString_plain (Nat.not_lt.mp visible) noQuote noSlash] at read
    obtain ⟨later, n, inside, rfl, rfl⟩ := after_eq_ok.mp read
    obtain ⟨body, rest, rfl, spelled, rfl⟩ := ih inside
    refine ⟨c :: body, rest, rfl, .plain (Nat.not_lt.mp visible) noQuote noSlash spelled, ?_⟩
    simp only [List.length_cons]
    omega

theorem readString_of_spelled {body : List Char} (spelled : Spelled codes body) (rest : List Char) :
    readString (body ++ '"' :: rest) = .ok (codes, body.length + 1) := by
  induction spelled with
  | nil => exact readString.eq_3 rest
  | plain visible noQuote noSlash _ ih =>
    rw [List.cons_append, readString_plain visible noQuote noSlash, ih, StringRead.after,
      List.singleton_append, List.length_cons, Nat.add_comm]
  | escape known _ ih =>
    rw [List.cons_append, List.cons_append, readString_escape known, ih, StringRead.after,
      List.singleton_append, List.length_cons, List.length_cons, Nat.add_comm]
  | @hex digits code codes cs length value _ ih =>
    rw [List.cons_append, List.cons_append, List.append_assoc, readString_hex length value (by simp), ih,
      StringRead.after, List.singleton_append]
    simp only [List.length_cons, List.length_append, length, Except.ok.injEq, Prod.mk.injEq, true_and]
    omega

/-- A string is what is spelled before a quote. -/
theorem readString_eq_ok : readString cs = .ok (codes, used) ↔
    ∃ body rest, cs = body ++ '"' :: rest ∧ Spelled codes body ∧ used = body.length + 1 := by
  refine ⟨spelled_of_readString, ?_⟩
  rintro ⟨body, rest, rfl, spelled, rfl⟩
  exact readString_of_spelled spelled rest

end String

/-- What may follow a number: nothing that the number could go on with. -/
def Stops (rest : List Char) : Prop :=
  ∀ c ∈ rest.head?, isDigit c = false ∧ c ≠ '.' ∧ c ≠ 'e' ∧ c ≠ 'E'

/-- The digits before the point, with no zero before others. -/
def IsWhole (digits : List Char) : Prop :=
  digits ≠ [] ∧ (∀ c ∈ digits, isDigit c = true) ∧ (digits.head? = some '0' → digits = ['0'])

section Number

variable {whole fraction rest : List Char} {negative : Bool}

theorem ne_of_isDigit {c letter : Char} (digit : isDigit c = true) (noDigit : isDigit letter = false) :
    c ≠ letter := by
  rintro rfl
  rw [digit] at noDigit
  cases noDigit

theorem isWhole_toDigits (n : Nat) : IsWhole (Nat.toDigits 10 n) := by
  refine ⟨Nat.toDigits_ne_nil, fun _ => Number.isDigit_of_mem_toDigits, ?_⟩
  induction n using Nat.strongRecOn with
  | ind n ih =>
    intro zero
    rcases Nat.lt_or_ge n 10 with small | large
    · rw [Nat.toDigits_of_lt_base small] at zero ⊢
      rw [Option.some.inj zero]
    · rw [Nat.toDigits_of_base_le (by decide) large] at zero
      rw [List.head?_append_of_ne_nil _ Nat.toDigits_ne_nil] at zero
      have none := congrArg digitsValue (ih (n / 10) (by omega) zero)
      rw [Number.digitsValue_toDigits] at none
      have : digitsValue ['0'] = 0 := rfl
      omega

theorem wholePart_append (isWhole : IsWhole whole) (stops : ∀ c ∈ rest.head?, isDigit c = false) :
    wholePart (whole ++ rest) = whole := by
  obtain ⟨present, digits, noZero⟩ := isWhole
  rw [wholePart.eq_def]
  split
  · rename_i same
    refine (noZero ?_).symm
    rw [← List.head?_append_of_ne_nil _ present, same]
    rfl
  · exact (Number.takeWhile_digits digits stops).1

theorem fractionPart_stops (stops : Stops rest) : fractionPart rest = [] := by
  rw [fractionPart.eq_def]
  split
  · exact absurd rfl (stops '.' rfl).2.1
  · rfl

theorem exponentPart_stops (stops : Stops rest) : exponentPart rest = [] := by
  cases rest with
  | nil => rfl
  | cons c rest =>
    obtain ⟨-, -, small, large⟩ := stops c rfl
    rw [exponentPart.eq_def]
    dsimp only
    split
    · rfl
    · rw [if_neg (by simp [small, large])]

theorem fractionPart_append (present : fraction ≠ []) (digits : ∀ c ∈ fraction, isDigit c = true)
    (stops : Stops rest) : fractionPart ('.' :: (fraction ++ rest)) = '.' :: fraction := by
  rw [fractionPart, (Number.takeWhile_digits digits fun c next => (stops c next).1).1]
  split
  · exact absurd rfl present
  · rfl

theorem readNumber?_eq {tail found : List Char} (isWhole : IsWhole whole)
    (stops : ∀ c ∈ tail.head?, isDigit c = false) (isFraction : fractionPart tail = found)
    (noExponent : exponentPart (tail.drop found.length) = []) :
    readNumber? (withMinus negative (whole ++ tail)) =
      if found ≠ [] then (Number.real? (withMinus negative (whole ++ found))).map fun bits =>
        (.scalar (.real bits), (withMinus negative (whole ++ found)).length)
      else if Number.maxDigits < whole.length then
        some (.longNumber whole.length, (withMinus negative whole).length)
      else (Number.signed? (withMinus negative whole)).map fun n =>
        (.scalar (.integer n), (withMinus negative whole).length) := by
  have isPart := wholePart_append isWhole stops
  have sign : (if (withMinus negative (whole ++ tail)).head? = some '-' then ['-'] else []) =
      withMinus negative [] := by
    cases negative with
    | true => rfl
    | false =>
      refine if_neg fun minus => ?_
      rw [withMinus, if_neg nofun, List.head?_append_of_ne_nil _ isWhole.1] at minus
      exact absurd (isWhole.2.1 '-' (List.mem_of_mem_head? minus)) (by decide)
  have body : (withMinus negative (whole ++ tail)).drop (withMinus negative []).length = whole ++ tail := by
    cases negative <;> rfl
  rw [readNumber?, sign, body, isPart, List.drop_left, isFraction, ← List.drop_drop, List.drop_left,
    noExponent, if_neg isWhole.1]
  simp only [← Number.withMinus_append, List.nil_append, List.append_nil, ne_eq, not_true_eq_false, or_false]
  by_cases none : found = []
  · rw [if_neg (not_not.mpr none), if_neg (not_not.mpr none), none, List.append_nil]
  · rw [if_pos none, if_pos none]

theorem readNumber?_integer {n : Nat} (few : n < 10 ^ Number.maxDigits) (stops : Stops rest) :
    readNumber? (withMinus negative (Nat.toDigits 10 n ++ rest)) =
      some (.scalar (.integer (signedBy negative n)), (withMinus negative (Nat.toDigits 10 n)).length) := by
  have short : ¬ Number.maxDigits < (Nat.toDigits 10 n).length :=
    Nat.not_lt.mpr ((Nat.length_toDigits_le_iff (by decide) (by decide)).mpr few)
  rw [readNumber?_eq (isWhole_toDigits n) (fun c next => (stops c next).1) (fractionPart_stops stops)
    (exponentPart_stops stops), if_neg (not_not.mpr rfl), if_neg short, Number.signed?_withMinus]
  rfl

theorem readNumber?_point (isWhole : IsWhole whole) (present : fraction ≠ [])
    (digits : ∀ c ∈ fraction, isDigit c = true) (stops : Stops rest) :
    readNumber? (withMinus negative (whole ++ '.' :: (fraction ++ rest))) =
      some (.scalar (.real (Number.double.withSign negative
        (Number.Decimal.toDouble ⟨digitsValue (whole ++ fraction), -fraction.length⟩))),
        (withMinus negative (whole ++ '.' :: fraction)).length) := by
  have noDigit : ∀ c ∈ ('.' :: (fraction ++ rest)).head?, isDigit c = false := by
    rintro _ ⟨⟩
    decide
  rw [readNumber?_eq isWhole noDigit (fractionPart_append present digits stops) (by
    rw [List.length_cons, List.drop_succ_cons, List.drop_left]
    exact exponentPart_stops stops), if_pos (List.cons_ne_nil _ _),
    Number.real?_point isWhole.2.1 digits isWhole.1]
  rfl

end Number

/-- How a token is written. A number is written as a whole one or with digits after a point. -/
inductive Written : Token → List Char → Prop
  | openBrace : Written .openBrace ['\x7b']
  | closeBrace : Written .closeBrace ['\x7d']
  | openBracket : Written .openBracket ['[']
  | closeBracket : Written .closeBracket [']']
  | colon : Written .colon [':']
  | comma : Written .comma [',']
  | word {word v} : (word, v) ∈ words → Written (.scalar v) word.toList
  | integer {negative n} : n < 10 ^ Number.maxDigits →
      Written (.scalar (.integer (signedBy negative n))) (withMinus negative (Nat.toDigits 10 n))
  | point {negative whole fraction} : IsWhole whole → fraction ≠ [] → (∀ c ∈ fraction, isDigit c = true) →
      Written (.scalar (.real (Number.double.withSign negative
        (Number.Decimal.toDouble ⟨digitsValue (whole ++ fraction), -fraction.length⟩))))
        (withMinus negative (whole ++ '.' :: fraction))
  | string {codes body} : Spelled codes body → Written (.string codes.joinHalves) ('"' :: (body ++ ['"']))

def Token.IsNumber : Token → Prop
  | .scalar (.integer _) | .scalar (.real _) => True
  | _ => False

section Token

variable {c : Char} {cs rest text : List Char} {token : Token} {used : Nat}

theorem readWord?_word {word : String} {v : Value} (member : (word, v) ∈ words) (rest : List Char) :
    readWord? (word.toList ++ rest) = some (.scalar v, word.length) := by
  simp only [words, List.mem_cons, Prod.mk.injEq, List.not_mem_nil, or_false] at member
  rcases member with ⟨rfl, rfl⟩ | ⟨rfl, rfl⟩ | ⟨rfl, rfl⟩ | ⟨rfl, rfl⟩ | ⟨rfl, rfl⟩ | ⟨rfl, rfl⟩
  · rfl
  · rfl
  · rfl
  · rfl
  · rfl
  · rfl

theorem exists_letters {word : String} {v : Value} (member : (word, v) ∈ words) :
    ∃ a b rest, word.toList = a :: b :: rest ∧ a ∈ ['n', 't', 'f', 'N', 'I', '-'] ∧ isDigit b = false := by
  simp only [words, List.mem_cons, Prod.mk.injEq, List.not_mem_nil, or_false] at member
  rcases member with ⟨rfl, -⟩ | ⟨rfl, -⟩ | ⟨rfl, -⟩ | ⟨rfl, -⟩ | ⟨rfl, -⟩ | ⟨rfl, -⟩
  all_goals exact ⟨_, _, _, rfl, by decide, by decide⟩

theorem readWord?_number {negative : Bool} (digit : isDigit c = true) :
    readWord? (withMinus negative (c :: cs)) = none := by
  rw [readWord?, Option.map_eq_none_iff, List.find?_eq_none]
  rintro ⟨word, v⟩ member
  obtain ⟨a, b, rest, letters, start, noDigit'⟩ := exists_letters member
  have noDigits : ∀ a ∈ ['n', 't', 'f', 'N', 'I', '-'], isDigit a = false := by simp [isDigit]
  have noDigit := noDigits a start
  dsimp only
  rw [letters]
  cases negative with
  | false => simp [withMinus, List.isPrefixOf, (ne_of_isDigit digit noDigit).symm]
  | true => simp [withMinus, List.isPrefixOf, (ne_of_isDigit digit noDigit').symm]

theorem readToken_other (offset : Nat) (other : c ∉ ['\x7b', '\x7d', '[', ']', ':', ',', '"'])
    (read : ((readWord? (c :: rest)).orElse fun _ => readNumber? (c :: rest)) = some (token, used)) :
    readToken offset c rest = (token, used - 1) := by
  rw [readToken.eq_def]
  split
  case h_8 => rw [read]
  all_goals exact absurd (by decide) other

theorem readToken_number (offset : Nat) {negative : Bool} {digits : List Char} (isWhole : IsWhole digits)
    (number : withMinus negative (digits ++ rest) = c :: cs)
    (read : readNumber? (c :: cs) = some (token, used)) : readToken offset c cs = (token, used - 1) := by
  obtain ⟨d, ds, rfl⟩ := List.exists_cons_of_ne_nil isWhole.1
  have digit : isDigit d = true := isWhole.2.1 d List.mem_cons_self
  have noWord : readWord? (c :: cs) = none := by
    rw [← number]
    exact readWord?_number digit
  refine readToken_other offset ?_ (by rw [noWord]; exact read)
  have first : c = '-' ∨ isDigit c = true := by
    cases negative with
    | true =>
      cases number
      exact .inl rfl
    | false =>
      cases number
      exact .inr digit
  intro special
  rcases first with rfl | digit
  · exact absurd special (by decide)
  · simp only [List.mem_cons, List.not_mem_nil, or_false] at special
    rcases special with rfl | rfl | rfl | rfl | rfl | rfl | rfl <;> exact absurd digit (by decide)

/-- A token is read as it is written, whatever follows it that a number could not go on with. -/
theorem readToken_written (offset : Nat) (written : Written token text) (isText : text = c :: cs)
    (stops : token.IsNumber → Stops rest) : readToken offset c (cs ++ rest) = (token, cs.length) := by
  cases written with
  | openBrace | closeBrace | openBracket | closeBracket | colon | comma =>
    cases isText
    rfl
  | @word word v member =>
    have read := readWord?_word member rest
    obtain ⟨a, b, more, letters, start, -⟩ := exists_letters member
    have other : ∀ a ∈ ['n', 't', 'f', 'N', 'I', '-'], a ∉ ['\x7b', '\x7d', '[', ']', ':', ',', '"'] := by
      simp
    obtain ⟨rfl, -⟩ := List.cons.inj (letters.symm.trans isText)
    have length : word.length = cs.length + 1 := by
      rw [← String.length_toList, isText, List.length_cons]
    rw [isText, List.cons_append, length] at read
    exact readToken_other offset (other a start) (by rw [read]; rfl)
  | @integer negative n few =>
    have number : withMinus negative (Nat.toDigits 10 n ++ rest) = c :: (cs ++ rest) := by
      rw [Number.withMinus_append, isText, List.cons_append]
    have read := number ▸ isText ▸ readNumber?_integer few (stops trivial)
    exact readToken_number offset (isWhole_toDigits n) number read
  | @point negative whole fraction isWhole present digits =>
    have number : withMinus negative (whole ++ '.' :: (fraction ++ rest)) = c :: (cs ++ rest) := by
      rw [← List.cons_append, ← List.append_assoc, Number.withMinus_append, isText, List.cons_append]
    have read := number ▸ isText ▸ readNumber?_point isWhole present digits (stops trivial)
    exact readToken_number offset isWhole number read
  | @string codes body spelled =>
    cases isText
    have read : readString (body ++ '"' :: rest) = .ok (codes, body.length + 1) :=
      readString_eq_ok.mpr ⟨body, rest, rfl, spelled, rfl⟩
    rw [List.append_assoc, List.singleton_append, readToken, read]
    simp

end Token

theorem withMinus_head (negative : Bool) {digits : List Char} (isWhole : IsWhole digits) :
    ∃ c cs, withMinus negative digits = c :: cs ∧ (c = '-' ∨ isDigit c = true) := by
  obtain ⟨d, ds, rfl⟩ := List.exists_cons_of_ne_nil isWhole.1
  cases negative with
  | true => exact ⟨'-', d :: ds, rfl, .inl rfl⟩
  | false => exact ⟨d, ds, rfl, .inr (isWhole.2.1 d List.mem_cons_self)⟩

theorem Written.exists_cons {token : Token} {text : List Char} (written : Written token text) :
    ∃ c cs, text = c :: cs ∧ isSpace c = false ∧ c ≠ '\uFEFF' := by
  have number {c : Char} (first : c = '-' ∨ isDigit c = true) : isSpace c = false ∧ c ≠ '\uFEFF' := by
    rcases first with rfl | digit
    · decide
    · simp only [isSpace, Bool.or_eq_false_iff, beq_eq_false_iff_ne]
      refine ⟨⟨⟨⟨?_, ?_⟩, ?_⟩, ?_⟩, ?_⟩ <;> exact ne_of_isDigit digit (by decide)
  cases written with
  | openBrace | closeBrace | openBracket | closeBracket | colon | comma | string =>
    exact ⟨_, _, rfl, by decide, by decide⟩
  | @word word v member =>
    obtain ⟨a, b, rest, letters, start, -⟩ := exists_letters member
    have others : ∀ a ∈ ['n', 't', 'f', 'N', 'I', '-'], isSpace a = false ∧ a ≠ '\uFEFF' := by
      simp [isSpace]
    exact ⟨a, b :: rest, letters, others a start⟩
  | @integer negative n few =>
    obtain ⟨c, cs, same, first⟩ := withMinus_head negative (isWhole_toDigits n)
    exact ⟨c, cs, same, number first⟩
  | @point negative whole fraction isWhole =>
    obtain ⟨c, cs, same, first⟩ := withMinus_head negative isWhole
    exact ⟨c, cs ++ '.' :: fraction, by rw [Number.withMinus_append, same, List.cons_append], number first⟩

/-- Tokens written one after the other, with blanks between them or not. After a number there must be
    something that it could not go on with. -/
inductive Spaced : List Token → List Char → Prop
  | nil : Spaced [] []
  | blank {c tokens cs} : isSpace c = true → Spaced tokens cs → Spaced tokens (c :: cs)
  | token {token text tokens cs} : Written token text → (token.IsNumber → Stops cs) → Spaced tokens cs →
      Spaced (token :: tokens) (text ++ cs)

theorem Spaced.head_ne {tokens : List Token} {cs : List Char} (spaced : Spaced tokens cs) :
    cs.head? ≠ some '\uFEFF' := by
  cases spaced with
  | nil => nofun
  | blank isBlank =>
    rintro ⟨⟩
    exact absurd isBlank (by decide)
  | token written =>
    obtain ⟨c, text, rfl, -, other⟩ := written.exists_cons
    rintro ⟨⟩
    exact other rfl

theorem lex_spaced {tokens : List Token} {cs : List Char} (spaced : Spaced tokens cs) (offset : Nat) :
    (lex offset cs).map (·.token) = tokens := by
  induction spaced generalizing offset with
  | nil => rw [lex]; rfl
  | blank isBlank _ ih => rw [lex, if_pos isBlank, ih]
  | token written stops _ ih =>
    obtain ⟨c, text, rfl, noBlank, -⟩ := written.exists_cons
    rw [List.cons_append, lex, if_neg (by simp [noBlank]), readToken_written offset written rfl stops]
    dsimp only
    rw [List.drop_left, List.map_cons, ih]

/-- A value is parsed from every way of writing it, if it is not nested too deep and has no name twice. -/
theorem parse_written {v : Value} (allowed : v.Allowed 0) {source : String}
    (written : Spaced v.tokens source.toList) : parse source = .ok v :=
  parse_eq_ok.mpr ⟨written.head_ne, lex_spaced written 0, allowed⟩

end ProtoBindings.Json
