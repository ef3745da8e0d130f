import Keyspace.Error
import Keyspace.Name.Levels
import Keyspace.Name.Piece

namespace Keyspace

structure Name where
  /-- The text of the name, with escapes. -/
  escaped : String
  /-- The raw segments, the root first, which is empty for a cascading name. -/
  segments : List String
  deriving DecidableEq, Repr

namespace Name

/-- The root of an escaped text, unless it starts with a separator, and the levels below. -/
def splitRoot (text : String) : Option Piece × List Piece :=
  let levels := (Levels.ofText text).map String.toList
  if text.toList.head? = some separator then (none, levels) else (levels.head?, levels.tail)

/-- The name with a root, or without one, and canonical levels below it. -/
def ofLevels (root : Option Piece) (below : List Piece) : Name where
  escaped := String.ofList (Piece.assemble root below)
  segments := (root.elim "" unescapeText) :: below.map unescapeText

/-- Reads a name, where empty levels and `.` go and `..` takes the level before it along. -/
def parse (text : String) : Except KeyError Name :=
  if text = "" then .error (.invalidName text .empty)
  else if wellEscaped text.toList = false then .error (.invalidName text .danglingEscape)
  else
    let (root, below) := splitRoot text
    if root = some .self ∨ root = some .parent then .error (.invalidName text .relativeRoot)
    else .ok (ofLevels root (Piece.resolve below))

/-- Reads a text by calls for its levels, unless a call would cut a character apart. -/
def readByCalls? (text : String) : Option (Except KeyError Name) :=
  if text = "" then some (.error (.invalidName text .empty))
  else if wellEscaped text.toList = false then some (.error (.invalidName text .danglingEscape))
  else
    match if text.toList.head? = some separator then some (none, text) else Levels.next? text with
    | none => none
    | some (root, rest) =>
      let root := root.map String.toList
      if root = some Piece.self ∨ root = some Piece.parent then
        some (.error (.invalidName text .relativeRoot))
      else
        (Levels.drain? rest).map fun levels =>
          .ok (ofLevels root (Piece.resolve (levels.map String.toList)))

/-- The name one raw segment further down. -/
def join (name : Name) (segment : String) : Except KeyError Name :=
  if segment = "" ∨ segment = "." ∨ segment = ".." then
    .error (.invalidName segment .relativeSegment)
  else
    let base := if name.escaped = "/" then name.escaped else name.escaped.push separator
    .ok ⟨base ++ escapeText segment, name.segments ++ [segment]⟩

/-- The last raw segment below the root, or nothing for a bare root. -/
def baseName (name : Name) : String :=
  name.segments.tail.getLast?.getD ""

def root (name : Name) : String :=
  name.segments.headD ""

def levels (name : Name) : List String :=
  Levels.ofText name.escaped

def isInactive (name : Name) : Bool :=
  name.levels.any (·.toList.head? == some '.')

end Name

end Keyspace
