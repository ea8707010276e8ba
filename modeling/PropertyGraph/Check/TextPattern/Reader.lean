import PropertyGraph.Check.TextPattern.Basic

/-!
# Reading text patterns

The written form of a pattern: letters stand for themselves, `.` for any
character but a line break, `^` and `$` for the two ends of the text. After a
piece, `+` asks for one or more of it, `*` for any number, `?` for at most one,
and a further `?` changes nothing about which texts match. A bar stands between
alternatives, and parentheses hold a pattern together. `\d`, `\w` and `\s` are
digits, word characters and blanks, their capitals everything else, `\b` and `\B`
the edges of words and the other places; before punctuation a backslash takes
its meaning away.
-/

namespace PropertyGraph.TextPattern

/-- Why a text is not a pattern. -/
inductive Fault where
  | openGroup
  | noGroupToClose
  | nothingToRepeat
  | danglingEscape
  | unknownEscape
  | tooDeep
  deriving DecidableEq

/-- The message of a fault. -/
def Fault.message : Fault → String
  | .openGroup => "found open group without closing ')'"
  | .noGroupToClose => "found closing ')' without matching '('"
  | .nothingToRepeat => "uncounted repetition operator must be applied to a sub-expression"
  | .danglingEscape =>
    "saw start of escape sequence, but saw end of pattern before it finished"
  | .unknownEscape => "unrecognized escape sequence"
  | .tooDeep => "pattern has too much nesting"

/-! ## Nesting -/

/-- A part of a pattern, and how many constructs stand around its innermost
place. -/
structure Part where
  pattern : TextPattern
  depth : Nat

/-- The deepest nesting that a pattern may have. -/
def depthLimit : Nat := 50

/-- Parts, the last one first, under one construct; a single part needs none. -/
def Part.combine (join : TextPattern → TextPattern → TextPattern) : List Part → Part
  | [] => ⟨.empty, 0⟩
  | last :: [] => last
  | last :: earlier =>
    ⟨earlier.foldl (fun rest part => join part.pattern rest) last.pattern,
      earlier.foldl (fun depth part => max depth part.depth) last.depth + 1⟩

/-- What has been read of a group: its finished alternatives and the pieces of
the present one, both last first. -/
structure OpenGroup where
  alternatives : List Part := []
  pieces : List Part := []

namespace OpenGroup

/-- The present alternative. -/
def alternative (g : OpenGroup) : Part := .combine .append g.pieces

/-- All that has been read. -/
def content (g : OpenGroup) : Part := .combine .either (g.alternative :: g.alternatives)

/-- The group with one more piece. -/
def push (g : OpenGroup) (piece : Part) : OpenGroup := { g with pieces := piece :: g.pieces }

/-- The group with one more piece, which holds no other. -/
def pushLeaf (g : OpenGroup) (leaf : TextPattern) : OpenGroup := g.push ⟨leaf, 0⟩

/-- The group with one more piece, which is a group itself. -/
def pushGroup (g inner : OpenGroup) : OpenGroup :=
  g.push ⟨inner.content.pattern, inner.content.depth + 1⟩

/-- The group at the start of its next alternative. -/
def next (g : OpenGroup) : OpenGroup := ⟨g.alternative :: g.alternatives, []⟩

/-- The group with its last piece repeated. -/
def repeated (g : OpenGroup) (times : TextPattern → TextPattern) : Except Fault OpenGroup :=
  match g.pieces with
  | [] => .error .nothingToRepeat
  | piece :: pieces =>
    .ok { g with pieces := ⟨times piece.pattern, piece.depth + 1⟩ :: pieces }

end OpenGroup

/-! ## Reading -/

/-- What a character stands for after a backslash. -/
def escaped (c : Char) : Except Fault TextPattern :=
  match c with
  | 'd' => .ok (oneOf .digit)
  | 'D' => .ok (oneOf (.complement .digit))
  | 'w' => .ok (oneOf .word)
  | 'W' => .ok (oneOf (.complement .word))
  | 's' => .ok (oneOf .blank)
  | 'S' => .ok (oneOf (.complement .blank))
  | 'b' => .ok (.boundary .wordBoundary)
  | 'B' => .ok (.boundary .noWordBoundary)
  | 'n' => .ok (oneOf (.only '\n'))
  | 'r' => .ok (oneOf (.only '\r'))
  | 't' => .ok (oneOf (.only '\t'))
  | c => if c.toNat < 128 ∧ !c.isAlphanum then .ok (oneOf (.only c)) else .error .unknownEscape

/-- What a character stands for alone. -/
def plain (c : Char) : TextPattern :=
  match c with
  | '^' => .boundary .textStart
  | '$' => .boundary .textEnd
  | '.' => oneOf .inLine
  | c => oneOf (.only c)

/-- Read the rest of a pattern inside the group `g`, which stands in the groups
`outer`, the innermost first. -/
def readFrom (g : OpenGroup) (outer : List OpenGroup) : List Char → Except Fault Part
  | [] => match outer with
    | [] => .ok g.content
    | _ :: _ => .error .openGroup
  | '\\' :: [] => .error .danglingEscape
  | '\\' :: c :: rest => do readFrom (g.pushLeaf (← escaped c)) outer rest
  | '(' :: '?' :: ':' :: rest => readFrom {} (g :: outer) rest
  | '(' :: rest => readFrom {} (g :: outer) rest
  | ')' :: rest => match outer with
    | [] => .error .noGroupToClose
    | surrounding :: outer => readFrom (surrounding.pushGroup g) outer rest
  | '|' :: rest => readFrom g.next outer rest
  | '+' :: '?' :: rest => do readFrom (← g.repeated .oneOrMore) outer rest
  | '+' :: rest => do readFrom (← g.repeated .oneOrMore) outer rest
  | '*' :: '?' :: rest => do readFrom (← g.repeated .many) outer rest
  | '*' :: rest => do readFrom (← g.repeated .many) outer rest
  | '?' :: '?' :: rest => do readFrom (← g.repeated .atMostOne) outer rest
  | '?' :: rest => do readFrom (← g.repeated .atMostOne) outer rest
  | c :: rest => readFrom (g.pushLeaf (plain c)) outer rest

/-- Read a pattern. -/
def read (text : String) : Except Fault TextPattern := do
  let whole ← readFrom {} [] text.toList
  if depthLimit < whole.depth then throw .tooDeep
  return whole.pattern

end PropertyGraph.TextPattern
