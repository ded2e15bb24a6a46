import ProtoBindings.Json.Token
import ProtoBindings.Proofs.Number.Decimal
import ProtoBindings.Proofs.Text.CodePoints

namespace ProtoBindings.Json

open Text (CodePoints)

/-- A value that is neither a text nor an enclosure. A number with a point is a bit pattern of double
    precision. -/
def Value.IsScalar : Value → Prop
  | .text _ | .array _ | .object _ => False
  | .real bits => bits < 2 ^ 64
  | _ => True

def Token.IsPlain : Token → Prop
  | .scalar v => v.IsScalar
  | _ => True

section Lex

variable {cs : List Char} {token : Token} {used : Nat}

theorem isPlain_of_readNumber? (read : readNumber? cs = some (token, used)) : token.IsPlain := by
  rw [readNumber?] at read
  generalize (if cs.head? = some '-' then ['-'] else []) = sign at read
  split at read
  · cases read
  split at read
  · obtain ⟨bits, number, made⟩ := Option.map_eq_some_iff.mp read
    cases made
    exact Number.real?_lt number
  split at read
  · cases read
    trivial
  · obtain ⟨n, -, made⟩ := Option.map_eq_some_iff.mp read
    cases made
    trivial

theorem isScalar_of_mem_words {word : String} {v : Value} (member : (word, v) ∈ words) : v.IsScalar := by
  have infinity : Number.double.infinity + 1 < 2 ^ 64 := by decide
  have negative : Number.double.withSign true Number.double.infinity < 2 ^ 64 := by decide
  simp only [words, List.mem_cons, Prod.mk.injEq, List.not_mem_nil, or_false] at member
  rcases member with ⟨-, rfl⟩ | ⟨-, rfl⟩ | ⟨-, rfl⟩ | ⟨-, rfl⟩ | ⟨-, rfl⟩ | ⟨-, rfl⟩
  · trivial
  · trivial
  · trivial
  · exact infinity
  · exact Nat.lt_of_succ_lt infinity
  · exact negative

theorem isPlain_of_readWord? (read : readWord? cs = some (token, used)) : token.IsPlain := by
  obtain ⟨⟨word, v⟩, found, made⟩ := Option.map_eq_some_iff.mp read
  cases made
  exact isScalar_of_mem_words (List.mem_of_find?_eq_some found)

theorem isPlain_readToken (offset : Nat) (c : Char) (rest : List Char) :
    (readToken offset c rest).1.IsPlain := by
  rw [readToken.eq_def]
  split
  any_goals trivial
  · split <;> trivial
  · split
    · rename_i token used read
      cases word : readWord? (c :: rest) with
      | some found =>
        rw [word] at read
        cases read
        exact isPlain_of_readWord? word
      | none =>
        rw [word] at read
        exact isPlain_of_readNumber? read
    · trivial

theorem isPlain_of_mem_lex {offset : Nat} {l : Lexeme} (member : l ∈ lex offset cs) : l.token.IsPlain := by
  induction offset, cs using lex.induct with
  | case1 =>
    rw [lex] at member
    cases member
  | case2 offset c rest blank ih =>
    rw [lex, if_pos blank] at member
    exact ih member
  | case3 offset c rest noBlank token more read ih =>
    rw [lex, if_neg noBlank, read] at member
    rcases List.mem_cons.mp member with rfl | later
    · have plain := isPlain_readToken offset c rest
      rwa [read] at plain
    · exact ih later

end Lex

end ProtoBindings.Json
