/-
Queue items and the byte budget.

* `QueuedJob` — a validated, rendered job waiting for its printer's worker;
* `ByteBudget`, `tryReserve`, `release` — the cap on payload bytes held in
  memory across all queues.

A reservation is the number of bytes it holds; dropping one in the source is
`release` here.  The compare-exchange loop of `try_reserve` takes effect in the
one iteration that succeeds, so it is a single step.
-/
import KilnPrint.Model.Document

namespace KilnPrint

structure QueuedJob where
  jobId : JobId
  printer : Printer
  spec : SubmitSpec
  reservation : ℕ
  deriving DecidableEq

structure ByteBudget where
  used : ℕ
  limit : ℕ

namespace ByteBudget

/-- Takes `bytes` from the budget; `none` when the addition overflows 64 bits
or exceeds the limit. -/
def tryReserve (b : ByteBudget) (bytes : ℕ) : Option ByteBudget :=
  let next := b.used + bytes
  if next > u64Max then none
  else if next > b.limit then none
  else some { b with used := next }

/-- A reservation that was made is within the limit. -/
theorem tryReserve_eq_some {b b' : ByteBudget} {bytes : ℕ} (h : b.tryReserve bytes = some b') :
    b'.used = b.used + bytes ∧ b'.limit = b.limit ∧ b'.used ≤ b.limit ∧ b'.used ≤ u64Max := by
  unfold tryReserve at h
  dsimp only at h
  split at h
  · cases h
  · split at h
    · cases h
    · obtain rfl := Option.some.inj h
      refine ⟨rfl, rfl, ?_, ?_⟩ <;> dsimp only <;> omega

def release (b : ByteBudget) (bytes : ℕ) : ByteBudget := { b with used := b.used - bytes }

end ByteBudget

end KilnPrint
