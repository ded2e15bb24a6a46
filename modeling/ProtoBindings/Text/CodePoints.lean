import ProtoBindings.Text.Quotation

namespace ProtoBindings.Text

abbrev CodePoints := List Nat

def isHighHalf (code : Nat) : Bool := decide (0xD800 ≤ code) && decide (code < 0xDC00)

def isLowHalf (code : Nat) : Bool := decide (0xDC00 ≤ code) && decide (code < 0xE000)

def isHalf (code : Nat) : Bool := isHighHalf code || isLowHalf code

namespace CodePoints

/-- Each high half with a low half after it becomes the character that they stand for. -/
def joinHalves : CodePoints → CodePoints
  | high :: low :: rest =>
    if isHighHalf high && isLowHalf low then
      (0x10000 + (high - 0xD800) * 0x400 + (low - 0xDC00)) :: joinHalves rest
    else high :: joinHalves (low :: rest)
  | codes => codes

def ofText (s : String) : CodePoints := s.toList.map Char.toNat

/-- The characters, with U+FFFD in place of lone halves. -/
def chars (codes : CodePoints) : List Char :=
  codes.map fun code => if isHalf code then '\uFFFD' else Char.ofNat code

def toText (codes : CodePoints) : String := String.ofList codes.chars

def hasHalf (codes : CodePoints) : Bool := codes.any isHalf

def has (c : Char) (codes : CodePoints) : Bool := codes.contains c.toNat

def cut (c : Char) (codes : CodePoints) : CodePoints × CodePoints :=
  (codes.takeWhile (· ≠ c.toNat), (codes.dropWhile (· ≠ c.toNat)).drop 1)

def quotedCode (quote : Char) (code : Nat) : List Char :=
  if isHalf code then '\\' :: 'u' :: hexDigits 4 code else quotedChar quote (Char.ofNat code)

def quotation (codes : CodePoints) : String :=
  let quote := quoteFor (codes.map Char.ofNat)
  String.ofList (quote :: codes.flatMap (quotedCode quote) ++ [quote])

end CodePoints

end ProtoBindings.Text
