import TrafficConfig.Text.Word

/-!
# Patterns

Regular expressions over texts. A pattern matches a text when it matches somewhere in it:

* **`CharSet`** is what one position accepts;
* **`Pattern.ends`** gives the places where a match that starts at a place can end, by recursion
  on the pattern. An unbounded repetition is over after as many rounds as there are characters,
  since a round that takes none adds nothing;
* **`Pattern.matchesSomewhere`** tries every place.
-/

namespace TrafficConfig

/-- A set of characters. -/
inductive CharSet where
  | range (low high : Char)
  | digit
  | word
  | blank
  /-- Every character but the line feed. -/
  | anyInLine
  | none
  | union (a b : CharSet)
  | negate (a : CharSet)

namespace CharSet

def has : CharSet → Char → Bool
  | .range low high, c => low ≤ c && c ≤ high
  | .digit, c => Text.isDigit c
  | .word, c => Text.isWord c
  | .blank, c => Text.isBlank c
  | .anyInLine, c => c != '\n'
  | .none, _ => false
  | .union a b, c => a.has c || b.has c
  | .negate a, c => !a.has c

/-- The set of one character. -/
def single (c : Char) : CharSet := .range c c

end CharSet

/-- A condition on a place in the text. -/
inductive Anchor where
  | textStart
  | textEnd
  | wordBoundary
  | noWordBoundary
  deriving DecidableEq

/-- A regular expression. -/
inductive Pattern where
  | empty
  | one (set : CharSet)
  | anchor (a : Anchor)
  | concat (p q : Pattern)
  | either (p q : Pattern)
  /-- At least `least` times, and at most `most` times when it is given. -/
  | repeated (p : Pattern) (least : Nat) (most : Option Nat)

namespace Pattern

/-- A place in a text: the character before it and the text behind it. -/
structure Place where
  before : Option Char
  rest : List Char
  deriving DecidableEq

def Anchor.holds (a : Anchor) (place : Place) : Bool :=
  let left := place.before.any Text.isWord
  let right := place.rest.head?.any Text.isWord
  match a with
  | .textStart => place.before.isNone
  | .textEnd => place.rest.isEmpty
  | .wordBoundary => left != right
  | .noWordBoundary => left == right

/-- A step from places to places, taken a number of times. -/
def times (step : List Place → List Place) : Nat → List Place → List Place
  | 0, places => places
  | n + 1, places => times step n (step places)

/-- A step taken at most a number of times. -/
def upTo (step : List Place → List Place) : Nat → List Place → List Place
  | 0, places => places
  | n + 1, places => (places ++ upTo step n (step places)).eraseDups

/-- Where a match that starts at a place can end. -/
def ends : Pattern → Place → List Place
  | .empty, place => [place]
  | .one set, place =>
    match place.rest with
    | c :: rest => if set.has c then [⟨some c, rest⟩] else []
    | [] => []
  | .anchor a, place => if Anchor.holds a place then [place] else []
  | .concat p q, place => ((p.ends place).flatMap q.ends).eraseDups
  | .either p q, place => (p.ends place ++ q.ends place).eraseDups
  | .repeated p least most, place =>
    let step (places : List Place) := (places.flatMap p.ends).eraseDups
    let rounds := match most with
      | some most => most - least
      | none => place.rest.length
    upTo step rounds (times step least [place])

/-- Whether the pattern matches at some place of the text behind a character. -/
def matchesFrom (p : Pattern) (before : Option Char) : List Char → Bool
  | [] => !(p.ends ⟨before, []⟩).isEmpty
  | c :: rest => !(p.ends ⟨before, c :: rest⟩).isEmpty || matchesFrom p (some c) rest

/-- Whether the pattern matches somewhere in the text. -/
def matchesSomewhere (p : Pattern) (text : String) : Bool := p.matchesFrom none text.toList

end Pattern

end TrafficConfig
