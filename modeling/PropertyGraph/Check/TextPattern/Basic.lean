/-!
# Text patterns

What a message should look like, and whether it does. A pattern is searched for
by walking the text once, from its first character to its last. On the way every
place of the pattern that takes a character is marked when it has just taken one,
so that the marks stand for all the ways to have matched so far, and one step
costs no more than the pattern is long, however many ways there are.
-/

namespace PropertyGraph

/-! ## Sets of characters -/

/-- The characters that one place of a pattern takes. -/
inductive CharSet where
  | range (low high : Char)
  | union (first second : CharSet)
  | complement (set : CharSet)
  deriving DecidableEq

namespace CharSet

/-- Whether a character belongs to a set. -/
def has : CharSet → Char → Bool
  | .range low high, c => decide (low ≤ c) && decide (c ≤ high)
  | .union first second, c => first.has c || second.has c
  | .complement set, c => !set.has c

/-- The set of one character. -/
def only (c : Char) : CharSet := .range c c

/-- Every character but a line break. -/
def inLine : CharSet := .complement (only '\n')

/-- The decimal digits of ASCII. -/
def digit : CharSet := .range '0' '9'

/-- The letters, digits and underscore of ASCII. -/
def word : CharSet :=
  .union (.range 'a' 'z') (.union (.range 'A' 'Z') (.union digit (only '_')))

/-- The blanks of ASCII. -/
def blank : CharSet := .union (.range '\t' '\r') (only ' ')

end CharSet

/-! ## Places between characters -/

/-- A condition on a place in a text. -/
inductive Boundary where
  | textStart
  | textEnd
  /-- Exactly one neighbour is a word character. -/
  | wordBoundary
  | noWordBoundary
  deriving DecidableEq

/-- Whether a condition holds at the place between two neighbours; a neighbour
is missing at the end of the text. -/
def Boundary.holds (before after : Option Char) : Boundary → Bool
  | .textStart => before.isNone
  | .textEnd => after.isNone
  | .wordBoundary => before.any CharSet.word.has != after.any CharSet.word.has
  | .noWordBoundary => before.any CharSet.word.has == after.any CharSet.word.has

/-! ## Patterns -/

/-- A text pattern, with a mark at each place that has just taken a character. -/
inductive TextPattern where
  | empty
  | char (set : CharSet) (marked : Bool)
  | boundary (condition : Boundary)
  | append (first second : TextPattern)
  | either (first second : TextPattern)
  | oneOrMore (piece : TextPattern)
  deriving DecidableEq

namespace TextPattern

/-- A place for one character of a set, not yet marked. -/
def oneOf (set : CharSet) : TextPattern := .char set false

/-- A piece or nothing. -/
def atMostOne (piece : TextPattern) : TextPattern := .either piece .empty

/-- Any number of pieces, one after the other. -/
def many (piece : TextPattern) : TextPattern := atMostOne (.oneOrMore piece)

/-! ## Finding a pattern -/

/-- Whether the pattern can be passed between two neighbours without taking a
character. -/
def passable (before after : Option Char) : TextPattern → Bool
  | .empty => true
  | .char _ _ => false
  | .boundary condition => condition.holds before after
  | .append first second => first.passable before after && second.passable before after
  | .either first second => first.passable before after || second.passable before after
  | .oneOrMore piece => piece.passable before after

/-- Whether the pattern can be over between two neighbours, the last character
taken being at a mark. -/
def finished (before after : Option Char) : TextPattern → Bool
  | .empty => false
  | .char _ marked => marked
  | .boundary _ => false
  | .append first second =>
    (first.finished before after && second.passable before after) ||
      second.finished before after
  | .either first second => first.finished before after || second.finished before after
  | .oneOrMore piece => piece.finished before after

/-- The pattern with its marks moved over the character `c`, at a place that
follows `before`; `entered` says whether the pattern may begin here. -/
def advance (entered : Bool) (before : Option Char) (c : Char) : TextPattern → TextPattern
  | .empty => .empty
  | .char set _ => .char set (entered && set.has c)
  | .boundary condition => .boundary condition
  | .append first second =>
    let reached :=
      (entered && first.passable before (some c)) || first.finished before (some c)
    .append (first.advance entered before c) (second.advance reached before c)
  | .either first second =>
    .either (first.advance entered before c) (second.advance entered before c)
  | .oneOrMore piece =>
    .oneOrMore (piece.advance (entered || piece.finished before (some c)) before c)

/-- Whether the pattern, as it is marked or begun anew, is over at some place of
the text ahead. -/
def occursAhead (p : TextPattern) (before : Option Char) : List Char → Bool
  | [] => p.passable before none || p.finished before none
  | c :: ahead =>
    p.passable before (some c) || p.finished before (some c) ||
      (p.advance true before c).occursAhead (some c) ahead

/-- Whether an unmarked pattern occurs anywhere in a text. -/
def occursIn (p : TextPattern) (text : String) : Bool := p.occursAhead none text.toList

end TextPattern

end PropertyGraph
