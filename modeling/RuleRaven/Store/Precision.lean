import RuleRaven.Store.Mongo

namespace RuleRaven

open Framework

namespace Store

variable {stored : Time → Time} {s : Store}

/-- The operations of the store, those on the outbox with their times kept as told. -/
def applyAt (stored : Time → Time) (s : Store) : (op : StoreOp) → Except Err op.Out × Store
  | .outboxClaim request => (.ok (s.claimAt stored request).1, (s.claimAt stored request).2)
  | .outboxComplete request =>
    let done := s.finalize request.id request.workerID (completeChangeAt stored request)
    (.ok done.1, done.2)
  | .outboxReschedule request =>
    let done := s.finalize request.id request.workerID (rescheduleChangeAt stored request)
    (.ok done.1, done.2)
  | op => s.apply op

/-- The store itself keeps whole milliseconds. -/
theorem applyAt_bsonTime (s : Store) (op : StoreOp) : s.applyAt bsonTime op = s.apply op := by
  cases op <;> rfl

/-- A claim finds nothing only where nothing is eligible. -/
theorem claimableAt_eq_none {now : Time} (h : s.claimableAt stored now = none) :
    ∀ d ∈ s.outbox.rows, d.eligibleAt stored now = false := by
  intro d hd
  rw [claimableAt, List.head?_eq_none_iff] at h
  have hnil : (s.outbox.rows.filter (Delivery.eligibleAt stored now)) = [] :=
    (h ▸ sortSlice_perm Delivery.before _).nil_eq.symm
  simpa using List.filter_eq_nil_iff.mp hnil d hd

end Store

end RuleRaven
