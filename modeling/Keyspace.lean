import Keyspace.Container.Describe
import Keyspace.Key.Diff
import Keyspace.Key.Draft
import Keyspace.Proofs.Container.Capacity
import Keyspace.Proofs.Container.Heap
import Keyspace.Proofs.Key.Coherence
import Keyspace.Proofs.Key.Refusal
import Keyspace.Proofs.Key.Sync
import Keyspace.Proofs.Name.Grammar
import Keyspace.Sample.Priorities
import Keyspace.Sample.Tree
import Keyspace.Proofs.Name.Composition
import Keyspace.Proofs.Sample.Fixture
import Keyspace.Proofs.Container.Outline
import Keyspace.Proofs.Container.Conservation
import Keyspace.Proofs.Key.Diff
import Keyspace.Proofs.Key.Footprint
import Keyspace.Proofs.Name.Root
import Keyspace.Proofs.Name.Ancestors
import Keyspace.Proofs.Key.Hierarchy
import Keyspace.Proofs.Container.Trace
import Keyspace.Proofs.Key.Identity
import Keyspace.Proofs.Container.Hysteresis
import Keyspace.Proofs.Container.Cost
import Keyspace.Proofs.Container.Sorting
import Keyspace.Proofs.Key.Marker
import Keyspace.Proofs.Key.Value
import Keyspace.Proofs.Key.Draft
import Keyspace.Proofs.Key.Reversal
import Keyspace.Proofs.Key.Inactivity
import Keyspace.Proofs.Key.Naming
import Keyspace.Proofs.Key.History
import Keyspace.Proofs.Container.Calls
import Keyspace.Proofs.Container.Missing
import Keyspace.Proofs.Sample.Tree
import Keyspace.Proofs.Sample.Order
import Keyspace.Proofs.Container.Mending
import Keyspace.Proofs.Name.Division
