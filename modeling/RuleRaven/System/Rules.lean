import RuleRaven.System.World

namespace RuleRaven

open Framework Notify

/-- A claim that is answered with a delivery took the first eligible row. -/
theorem claim_answered {s s' : Store} {request : ClaimRequest} {delivery : Delivery}
    (h : StoreAnswer s (.outboxClaim request) (.ok (some delivery)) s') :
    ∃ d, s.claimable request.now = some d ∧ delivery = (claimChange request).apply d ∧
      s' = (s.claim request).2 := by
  have happly : ((.ok (s.claim request).1 : Except Err (Option Delivery)),
      (s.claim request).2) = (.ok (some delivery), s') := h.ok
  obtain ⟨hreply, rfl⟩ := Prod.mk.inj happly
  cases hd : s.claimable request.now with
  | none =>
    rw [Store.claim_eq_none hd] at hreply
    cases hreply
  | some d =>
    simp only [Store.claim_eq_some hd, Except.ok.injEq, Option.some.injEq] at hreply
    exact ⟨d, rfl, hreply.symm, rfl⟩

section Clients

variable {ι : Type} {guard : ι → Op → World ι → Prop} {inv : World ι → Prop} {i : ι} {w : World ι}

theorem keeps_claimDelivery {request : ClaimRequest} {R : Delivery → World ι → Prop}
    (h : Keeps guard inv i (fun reply w' => ∀ delivery, reply = .ok (some delivery) →
      R delivery w') (Eff.store (.outboxClaim request)) w) :
    Keeps guard inv i (fun reply w' => ∀ delivery, reply = .ok delivery → R delivery w')
      (Mongo.claimDelivery request) w := by
  unfold Mongo.claimDelivery
  split_ifs
  · exact keeps_ret fun _ h => by cases h
  · refine keeps_bind h ?_
    rintro (err | _ | delivery) w' hclaimed
    · exact keeps_ret fun _ h => by cases h
    · exact keeps_ret fun _ h => by cases h
    · refine keeps_ret fun _ h => ?_
      cases h
      exact hclaimed delivery rfl

theorem keeps_completeDelivery {request : CompleteRequest}
    (h : Keeps guard inv i (fun _ _ => True) (Eff.store (.outboxComplete request)) w) :
    Keeps guard inv i (fun _ _ => True) (Mongo.completeDelivery request) w := by
  unfold Mongo.completeDelivery
  split_ifs
  · exact keeps_ret trivial
  · refine keeps_bind h ?_
    rintro (err | _ | _) w' - <;> exact keeps_ret trivial

theorem keeps_rescheduleDelivery {request : RescheduleRequest}
    (h : Keeps guard inv i (fun _ _ => True) (Eff.store (.outboxReschedule request)) w) :
    Keeps guard inv i (fun _ _ => True) (Mongo.rescheduleDelivery request) w := by
  unfold Mongo.rescheduleDelivery
  split_ifs
  · exact keeps_ret trivial
  · exact keeps_ret trivial
  · refine keeps_bind h ?_
    rintro (err | _ | _) w' - <;> exact keeps_ret trivial

variable (d : Dispatcher) {Tried : World ι → Prop}

theorem keeps_complete {delivery : Delivery}
    (hnow : ∀ v, Tried v → Keeps guard inv i (fun _ => Tried) Eff.now v)
    (hcomplete : ∀ now v, Tried v → Keeps guard inv i (fun _ _ => True)
      (Eff.store (.outboxComplete (d.completeRequest delivery now))) v)
    (hw : Tried w) : Keeps guard inv i (fun _ _ => True) (d.complete delivery) w := by
  refine keeps_bind (hnow w hw) fun now w₁ htried => ?_
  refine keeps_bind (keeps_completeDelivery (hcomplete now w₁ htried)) ?_
  rintro (err | _) w₂ - <;> exact keeps_ret trivial

theorem keeps_reschedule {delivery : Delivery} {err : DeliveryError}
    (hctx : ∀ v, Tried v → Keeps guard inv i (fun _ => Tried) Eff.ctxErr v)
    (hnow : ∀ v, Tried v → Keeps guard inv i (fun _ => Tried) Eff.now v)
    (hreschedule : ∀ now v, Tried v → Keeps guard inv i (fun _ _ => True)
      (Eff.store (.outboxReschedule (d.rescheduleRequest delivery err now))) v)
    (hw : Tried w) : Keeps guard inv i (fun _ _ => True) (d.reschedule delivery err) w := by
  refine keeps_bind (hctx w hw) ?_
  rintro (_ | cancelled) w₁ htried
  · refine keeps_bind (hnow w₁ htried) fun now w₂ htried => ?_
    refine keeps_bind (keeps_rescheduleDelivery (hreschedule now w₂ htried)) ?_
    rintro (err | _) w₃ - <;> exact keeps_ret trivial
  · exact keeps_ret trivial

/-- The rule of `DispatchOne`: what is known before the claim, when the time is read, once a
delivery is held and once it was tried, and one condition for each call. -/
theorem keeps_dispatchOne (Idle : World ι → Prop) (Ready : Time → World ι → Prop)
    (Held : Time → Delivery → World ι → Prop)
    (Tried : Delivery → Option DeliveryError → World ι → Prop)
    (hctx : ∀ v, Idle v → Keeps guard inv i (fun _ => Idle) Eff.ctxErr v)
    (hnow : ∀ v, Idle v → Keeps guard inv i Ready Eff.now v)
    (hclaim : ∀ now v, Ready now v → Keeps guard inv i
      (fun reply v' => ∀ delivery, reply = .ok (some delivery) → Held now delivery v')
      (Eff.store (.outboxClaim ⟨d.workerID, now, d.leaseDuration⟩)) v)
    (hattempt : ∀ delivery now v, Held now delivery v →
      Keeps guard inv i (Tried delivery) (d.attempt delivery now) v)
    (htriedCtx : ∀ delivery outcome v, Tried delivery outcome v →
      Keeps guard inv i (fun _ => Tried delivery outcome) Eff.ctxErr v)
    (htriedNow : ∀ delivery outcome v, Tried delivery outcome v →
      Keeps guard inv i (fun _ => Tried delivery outcome) Eff.now v)
    (hcomplete : ∀ delivery now v, Tried delivery none v → Keeps guard inv i (fun _ _ => True)
      (Eff.store (.outboxComplete (d.completeRequest delivery now))) v)
    (hreschedule : ∀ delivery err now v, Tried delivery (some err) v →
      Keeps guard inv i (fun _ _ => True)
        (Eff.store (.outboxReschedule (d.rescheduleRequest delivery err now))) v)
    (hw : Idle w) : Keeps guard inv i (fun _ _ => True) d.dispatchOne w := by
  refine keeps_bind (hctx w hw) ?_
  rintro (_ | cancelled) w₁ hidle
  swap
  · exact keeps_ret trivial
  refine keeps_bind (hnow w₁ hidle) fun now w₂ hready => ?_
  refine keeps_bind (keeps_claimDelivery (hclaim now w₂ hready)) ?_
  rintro (err | delivery) w₃ hheld
  · dsimp only
    split_ifs <;> exact keeps_ret trivial
  refine keeps_bind (hattempt delivery now w₃ (hheld delivery rfl)) ?_
  rintro (_ | err) w₄ htried
  · exact keeps_complete d (htriedNow delivery none) (hcomplete delivery) htried
  · exact keeps_reschedule d (htriedCtx delivery (some err)) (htriedNow delivery (some err))
      (hreschedule delivery err) htried

end Clients

end RuleRaven
