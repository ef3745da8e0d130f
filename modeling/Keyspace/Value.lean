import Keyspace.Text.Utf8

namespace Keyspace

inductive Value
  | absent
  | text (content : String)
  | binary (content : List UInt8)
  deriving DecidableEq, Repr

namespace Value

def bytes : Value → List UInt8
  | absent => []
  | text content => Text.utf8 content
  | binary content => content

/-- The bytes as stored: a text is closed by a zero byte, binary content stands as it is. -/
def storedBytes : Value → List UInt8
  | absent => []
  | text content => Text.utf8 content ++ [0]
  | binary content => content

def storedSize : Value → Nat
  | absent => 0
  | text content => content.utf8ByteSize + 1
  | binary content => content.length

def isAbsent : Value → Bool
  | absent => true
  | _ => false

def isText : Value → Bool
  | text _ => true
  | _ => false

theorem storedSize_eq_length (value : Value) : value.storedSize = value.storedBytes.length := by
  cases value with
  | absent => rfl
  | text content => simp [storedSize, storedBytes, Text.length_utf8]
  | binary content => rfl

theorem storedSize_beq_and_storedBytes_beq (a b : Value) :
    (a.storedSize == b.storedSize && a.storedBytes == b.storedBytes) =
      (a.storedBytes == b.storedBytes) := by
  rw [storedSize_eq_length, storedSize_eq_length, Bool.and_eq_right_iff_imp]
  intro h
  rw [eq_of_beq h, beq_self_eq_true]

end Value

end Keyspace
