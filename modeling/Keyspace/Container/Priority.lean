namespace Keyspace.Priority

def largestFirst (a b : Int) : Bool :=
  decide (b < a)

def smallestFirst (a b : Int) : Bool :=
  decide (a < b)

/-- Smaller numbers come out first, and a missing number has no preference either way. -/
def smallestPresentFirst : Option Int → Option Int → Bool
  | some a, some b => decide (a < b)
  | _, _ => false

end Keyspace.Priority
