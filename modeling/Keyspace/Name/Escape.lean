namespace Keyspace

def separator : Char := '/'

/-- Stands before a separator, or another escape, that belongs to a segment. -/
def escape : Char := '\\'

/-- The characters that stand in a segment only behind an escape. -/
def isReserved (c : Char) : Bool :=
  c == separator || c == escape

def escapeSegment : List Char → List Char
  | [] => []
  | c :: rest => if isReserved c then escape :: c :: escapeSegment rest else c :: escapeSegment rest

/-- Every escape, read from the left, is followed by the separator or escape that it stands for. -/
def wellEscaped : List Char → Bool
  | [] => true
  | c :: rest =>
    if c = escape then
      match rest with
      | [] => false
      | d :: rest => isReserved d && wellEscaped rest
    else wellEscaped rest

def unescape : List Char → List Char
  | [] => []
  | c :: rest =>
    if c = escape then
      match rest with
      | [] => []
      | d :: rest => d :: unescape rest
    else c :: unescape rest

def escapeText (raw : String) : String :=
  String.ofList (escapeSegment raw.toList)

def unescapeText (text : List Char) : String :=
  String.ofList (unescape text)

theorem wellEscaped_cons {c : Char} (hc : c ≠ escape) (rest : List Char) :
    wellEscaped (c :: rest) = wellEscaped rest := by
  cases rest <;> simp [wellEscaped, hc]

theorem wellEscaped_pair (d : Char) (rest : List Char) :
    wellEscaped (escape :: d :: rest) = (isReserved d && wellEscaped rest) := by
  simp [wellEscaped]

theorem unescape_cons {c : Char} (hc : c ≠ escape) (rest : List Char) :
    unescape (c :: rest) = c :: unescape rest := by
  cases rest <;> simp [unescape, hc]

theorem unescape_pair (d : Char) (rest : List Char) :
    unescape (escape :: d :: rest) = d :: unescape rest := by
  simp [unescape]

theorem ne_escape_of_not_reserved {c : Char} (hc : ¬isReserved c = true) : c ≠ escape := by
  intro he
  simp [isReserved, he] at hc

theorem wellEscaped_escapeSegment (raw : List Char) : wellEscaped (escapeSegment raw) = true := by
  induction raw with
  | nil => rfl
  | cons c rest ih =>
    by_cases hc : isReserved c = true
    · simp [escapeSegment, wellEscaped_pair, hc, ih]
    · simp [escapeSegment, wellEscaped_cons (ne_escape_of_not_reserved hc), hc, ih]

theorem unescape_escapeSegment (raw : List Char) : unescape (escapeSegment raw) = raw := by
  induction raw with
  | nil => rfl
  | cons c rest ih =>
    by_cases hc : isReserved c = true
    · simp [escapeSegment, unescape_pair, hc, ih]
    · simp [escapeSegment, unescape_cons (ne_escape_of_not_reserved hc), hc, ih]

end Keyspace
