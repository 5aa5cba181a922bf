import TrafficConfig.Json.Reader

/-!
# Documents as they are written

Where a value ends is a matter of syntax alone: no numeral is too large for it, no escape has to
denote a character, and nothing is nested too deep. So an object can be taken apart before anything
in it is read, and what nobody asks for is never read:

* **`Element`**: an element of an array or an object, as it is written;
* **`pastValue?`** is what stands behind a value, **`elements?`** tells the elements up to a
  closing bracket as well;
* **`members?`** takes an object apart that is the rest of a text.
-/

namespace TrafficConfig

namespace Json.Outline

/-- What stands behind blanks. -/
def pastBlanks (cs : List Char) : List Char := cs.dropWhile Reader.isSpace

/-- The characters in front of a rest. -/
def front (cs rest : List Char) : List Char := cs.take (cs.length - rest.length)

/-- A place inside a string literal: between characters, behind a backslash, or in front of a
hexadecimal digit behind which so many are left. -/
inductive Place where
  | between
  | backslash
  | digit (left : Nat)

/-- The place behind a character that is not the closing quote. Hexadecimal digits may denote
anything. -/
def Place.behind? (c : Char) : Place → Option Place
  | .between =>
    if c = '\\' then some .backslash else if c.toNat < 0x20 then none else some .between
  | .backslash =>
    if c = 'u' then some (.digit 3) else (Reader.escaped? c).map fun _ => .between
  | .digit left =>
    (Text.hexValue? c).map fun _ =>
      match left with
      | 0 => .between
      | left + 1 => .digit left

/-- What stands behind a string literal, from a place inside of it. -/
def pastLiteral? : Place → List Char → Option (List Char)
  | _, [] => none
  | .between, c :: rest =>
    if c = '"' then some rest else (Place.between.behind? c).bind fun p => pastLiteral? p rest
  | p, c :: rest => (p.behind? c).bind fun p => pastLiteral? p rest

/-- What stands behind a numeral. -/
def pastNumeral? (cs : List Char) : Option (List Char) :=
  if (Numeral.split? (cs.takeWhile Reader.isNumeralChar)).isSome then
    some (cs.dropWhile Reader.isNumeralChar)
  else none

/-- What stands behind a word. -/
def pastWord? (cs : List Char) : Option (List Char) :=
  if (Reader.word? (cs.takeWhile Char.isAlpha).reverse).isSome then
    some (cs.dropWhile Char.isAlpha)
  else none

/-- The brackets of an array and of an object. -/
inductive Bracket where
  | square
  | curly

/-- The bracket in front of the elements. -/
def Bracket.opening : Bracket → Char
  | .square => '['
  | .curly => '\x7b'

/-- The bracket behind the elements. -/
def Bracket.closing : Bracket → Char
  | .square => ']'
  | .curly => '\x7d'

/-- An element between brackets, as it is written: its value, and in an object the string literal
that is its key. -/
structure Element where
  key : List Char
  value : List Char

/-- The key of an element, and what stands behind its colon. Elements of arrays have none. -/
def key? : Bracket → List Char → Option (List Char × List Char)
  | .square, cs => some ([], cs)
  | .curly, [] => none
  | .curly, c :: rest =>
    if c = '"' then
      (pastLiteral? .between rest).bind fun behind =>
        match pastBlanks behind with
        | [] => none
        | colon :: value =>
          if colon = ':' then some (front (c :: rest) behind, pastBlanks value) else none
    else none

mutual

/-- What stands behind a value. The number bounds the steps that are taken. -/
def pastValue? : Nat → List Char → Option (List Char)
  | 0, _ => none
  | _, [] => none
  | steps + 1, c :: rest =>
    if c = '"' then pastLiteral? .between rest
    else if c = '[' then (elements? steps .square (pastBlanks rest)).map (·.2)
    else if c = '\x7b' then (elements? steps .curly (pastBlanks rest)).map (·.2)
    else if c = '-' || c.isDigit then pastNumeral? (c :: rest)
    else pastWord? (c :: rest)

/-- The elements up to a closing bracket, and what stands behind it. -/
def elements? : Nat → Bracket → List Char → Option (List Element × List Char)
  | 0, _, _ => none
  | _, _, [] => none
  | steps + 1, b, c :: rest =>
    if c = b.closing then some ([], rest) else sequence? steps b (c :: rest)

/-- One element or more, with commas between them, up to a closing bracket. -/
def sequence? : Nat → Bracket → List Char → Option (List Element × List Char)
  | 0, _, _ => none
  | steps + 1, b, cs =>
    (key? b cs).bind fun (key, cs) =>
      (pastValue? steps cs).bind fun behind =>
        match pastBlanks behind with
        | [] => none
        | c :: rest =>
          if c = ',' then
            (sequence? steps b (pastBlanks rest)).map fun (elements, rest) =>
              (⟨key, front cs behind⟩ :: elements, rest)
          else if c = b.closing then some ([⟨key, front cs behind⟩], rest)
          else none

end

/-- The members of an object whose opening brace was passed, when nothing but blanks stands behind
it. -/
def members? (cs : List Char) : Option (List Element) :=
  (elements? (3 * cs.length + 2) .curly (pastBlanks cs)).bind fun (elements, rest) =>
    if (pastBlanks rest).isEmpty then some elements else none

end Json.Outline

end TrafficConfig
