import Keyspace.Name.Escape

namespace Keyspace

/-- A stretch of escaped text without an unescaped separator. -/
abbrev Piece := List Char

namespace Piece

def extendFirst (text : List Char) : List Piece → List Piece
  | [] => [text]
  | piece :: pieces => (text ++ piece) :: pieces

/-- The stretches between the unescaped separators, empty ones included. -/
def split : List Char → List Piece
  | [] => [[]]
  | c :: rest =>
    if c = escape then
      match rest with
      | [] => [[c]]
      | d :: rest => extendFirst [c, d] (split rest)
    else if c = separator then [] :: split rest
    else extendFirst [c] (split rest)

/-- The levels of an escaped text: its pieces that hold any text. -/
def levels (text : List Char) : List Piece :=
  (split text).filter (· ≠ [])

/-- The piece that stands for the level it is written on. -/
def self : Piece := ['.']

/-- The piece that stands for the level above. -/
def parent : Piece := ['.', '.']

/-- Follows one piece from the levels kept so far, the deepest one first. -/
def follow (kept : List Piece) (piece : Piece) : List Piece :=
  if piece = self then kept
  else if piece = parent then kept.tail
  else piece :: kept

/-- The levels that remain below the root once every relative piece is followed. -/
def resolve (below : List Piece) : List Piece :=
  (below.foldl follow []).reverse

/-- The escaped text of a root and the levels below it, or a lone separator if there are none. -/
def assemble (root : Option Piece) (below : List Piece) : List Char :=
  match root with
  | some root => root ++ below.flatMap (separator :: ·)
  | none => if below = [] then [separator] else below.flatMap (separator :: ·)

theorem split_separator (rest : List Char) : split (separator :: rest) = [] :: split rest := by
  have hne : separator ≠ escape := by decide
  cases rest <;> simp [split, hne]

theorem split_pair (d : Char) (rest : List Char) :
    split (escape :: d :: rest) = extendFirst [escape, d] (split rest) := by
  simp [split]

theorem split_cons {c : Char} (hc : isReserved c = false) (rest : List Char) :
    split (c :: rest) = extendFirst [c] (split rest) := by
  obtain ⟨hs, he⟩ : c ≠ separator ∧ c ≠ escape := by simpa [isReserved] using hc
  cases rest <;> simp [split, hs, he]

theorem split_ne_nil (text : List Char) : split text ≠ [] := by
  have hextend (start : List Char) (pieces : List Piece) : extendFirst start pieces ≠ [] := by
    cases pieces <;> simp [extendFirst]
  unfold split
  split
  · simp
  · split
    · split
      · simp
      · exact hextend _ _
    · split
      · simp
      · exact hextend _ _

end Piece

end Keyspace
