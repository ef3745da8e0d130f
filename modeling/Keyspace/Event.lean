namespace Keyspace

/-- How closely a log has to be read for a record to matter. -/
inductive Severity
  | debug
  | trace
  deriving DecidableEq, Repr

inductive Datum
  | text (value : String)
  | number (value : Nat)
  deriving DecidableEq, Repr

structure LogRecord where
  severity : Severity
  message : String
  data : List (String × Datum)
  deriving DecidableEq, Repr

/-- What a key reports while it changes. -/
inductive KeyEvent
  | nameCanonicalised (given canonical : String)
  | markerSet (key : String)
  | markerRemoved (key : String)
  | syncCleared (key : String)
  deriving DecidableEq, Repr

def KeyEvent.record : KeyEvent → LogRecord
  | .nameCanonicalised given canonical =>
    ⟨.debug, "key name canonicalised", [("given", .text given), ("canonical", .text canonical)]⟩
  | .markerSet key =>
    ⟨.debug, "binary marker set, converting text value", [("key", .text key)]⟩
  | .markerRemoved key =>
    ⟨.debug, "binary marker removed, converting value to text", [("key", .text key)]⟩
  | .syncCleared key => ⟨.trace, "sync flag cleared", [("key", .text key)]⟩

end Keyspace
