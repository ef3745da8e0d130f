import Keyspace.Container.Heap
import Keyspace.Container.Stack

namespace Keyspace

def describeItems {α : Type} (describe : α → String) (items : Array α) : String :=
  "[" ++ ", ".intercalate (items.toList.map describe) ++ "]"

def describeOptional {α : Type} (describe : α → String) : Option α → String
  | none => "None"
  | some item => s!"Some({describe item})"

def Capacity.describe (capacity : Capacity) : String :=
  s!"CapacityPolicy \x7b initial: {capacity.initial}, current: {capacity.current} \x7d"

def Container.describeParts {α : Type} {discipline : Discipline α} (describe : α → String)
    (container : Container discipline) : String :=
  s!"data: {describeItems describe container.items}, policy: {container.capacity.describe}"

def Stack.describe {α : Type} (describe : α → String) (stack : Stack α) : String :=
  s!"GrowableStack \x7b {stack.describeParts describe} \x7d"

/-- A heap written out without its order, which has no text. -/
def Heap.describe {α : Type} {higher : α → α → Bool} (describe : α → String)
    (heap : Heap higher) : String :=
  s!"GrowableHeap \x7b {heap.describeParts describe}, .. \x7d"

end Keyspace
