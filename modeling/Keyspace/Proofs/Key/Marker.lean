import Keyspace.Proofs.Key.Coherence

namespace Keyspace.Key

variable {key changed : Key}

end Keyspace.Key
