import Keyspace.Container.Basic

namespace Keyspace

inductive Request (α : Type)
  | insert (item : α)
  | remove
  deriving DecidableEq, Repr

/-- What a request shows: what came out of it, and the size and the capacity afterwards. -/
structure Reply (α : Type) where
  taken : Except ContainerError (Option α)
  change : Option CapacityChange
  size : Nat
  capacity : Capacity

def Reply.item? {α : Type} (reply : Reply α) : Option α :=
  reply.taken.toOption.join

namespace Container

variable {α : Type} {discipline : Discipline α}

def serve (container : Container discipline) : Request α → Container discipline × Reply α
  | .insert item =>
    let (after, change) := container.insert item
    (after, ⟨.ok none, change, after.size, after.capacity⟩)
  | .remove =>
    match container.remove with
    | .error error => (container, ⟨.error error, none, container.size, container.capacity⟩)
    | .ok (item, after, change) => (after, ⟨.ok (some item), change, after.size, after.capacity⟩)

def run (container : Container discipline) :
    List (Request α) → Container discipline × List (Reply α)
  | [] => (container, [])
  | request :: requests =>
    let (served, reply) := container.serve request
    let (final, replies) := served.run requests
    (final, reply :: replies)

def drain (container : Container discipline) : Container discipline × List (Reply α) :=
  container.run (List.replicate container.size .remove)

end Container

end Keyspace
