namespace Keyspace

inductive NameFault
  | empty
  | danglingEscape
  | relativeRoot
  | relativeSegment
  | emptyMetadataName
  deriving DecidableEq, Repr

def NameFault.reason : NameFault → String
  | .empty => "name is empty"
  | .danglingEscape => "escape must precede a separator or escape"
  | .relativeRoot => "name cannot start with a relative segment"
  | .relativeSegment => "segment must be non-empty and not relative"
  | .emptyMetadataName => "meta name is empty"

inductive KeyError
  | nameless
  | invalidName (name : String) (fault : NameFault)
  | embeddedNul
  | notText
  | invalidUtf8
  deriving DecidableEq, Repr

def KeyError.message : KeyError → String
  | .nameless => "key has no name"
  | .invalidName name fault => s!"invalid name '{name}': {fault.reason}"
  | .embeddedNul => "text value contains an embedded NUL"
  | .notText => "key holds a binary value"
  | .invalidUtf8 => "binary value is not valid UTF-8 text"

end Keyspace
