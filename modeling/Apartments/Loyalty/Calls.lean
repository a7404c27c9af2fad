import Apartments.Loyalty.Services

/-!
# Which settlements an operation makes

Only `reconcile` settles a booking, and other operations call it for several bookings in turn. A call is the tables it is
made from and the booking; `settlement` is what it is about to settle there.
-/

namespace Apartments.Loyalty

section
variable (digest : Payload → String) (site : Site)

/-- The tables, the booking object and the facts that a call of `reconcile` comes to settle by. -/
def settlement (w : World) (pk : Uuid) : Option (World × Booking × Facts) :=
  if site.enabled = false ∨ site.launchAt = none then none
  else
    (w.booking pk).bind fun loaded =>
      match bookingFacts site (attachPaidPhoneAccount site w loaded).1 (attachPaidPhoneAccount site w loaded).2 with
      | .error _ => none
      | .ok facts => some ((attachPaidPhoneAccount site w loaded).1, (attachPaidPhoneAccount site w loaded).2, facts)

/-- What a call is about to settle satisfies `P`. -/
def Permits (P : World → Booking → Facts → Prop) (call : World × Uuid) : Prop :=
  ∀ x ∈ settlement site call.1 call.2, P x.1 x.2.1 x.2.2

instance (P : World → Booking → Facts → Prop) [∀ w b facts, Decidable (P w b facts)] (call : World × Uuid) :
    Decidable (Permits site P call) :=
  inferInstanceAs (Decidable (∀ x ∈ settlement site call.1 call.2, P x.1 x.2.1 x.2.2))

/-- The call that `_safe_reconcile` makes after its first two parts. -/
def safeReconcileCalls (pk : Uuid) (w : World) : List (World × Uuid) :=
  if site.pilotOnly = true ∧ (w.booking pk).any (fun b => !site.bookingAllowed w b) = true then []
  else if site.enabled = false then []
  else
    match settleBookingPoints digest site pk w with
    | .error _ => []
    | .ok redeemed =>
      match restoreCancelledPoints site pk redeemed with
      | .error _ => []
      | .ok restored => [(restored, pk)]

/-- The calls of the loop of `enroll`. -/
def reconcileAllCalls : List Uuid → World → List (World × Uuid)
  | [], _ => []
  | pk :: pks, w =>
    (w, pk) ::
      match reconcile digest site pk w with
      | .error _ => []
      | .ok (w, _) => reconcileAllCalls pks w

/-- The calls of the loop of `apply_for_user`. -/
def applyOffersCalls (user : User) : List Uuid → World → List (World × Uuid)
  | [], _ => []
  | pk :: pks, w =>
    if (w.booking pk).any (fun b => (authorized site w b).any fun offer => offer.beneficiary == user) = true then
      safeReconcileCalls digest site pk w ++
        match safeReconcile digest site pk w with
        | .error _ => []
        | .ok w => applyOffersCalls user pks w
    else applyOffersCalls user pks w

def applyForUserCalls (user : User) (w : World) : List (World × Uuid) :=
  if site.enabled = false ∨ site.isActive user = false ∨ (w.memberOf user).all (fun m => m.status != .active) = true then
    []
  else
    applyOffersCalls digest site user ((w.bookings.filter fun b =>
      b.loyaltyState.offer.any fun o => (site.phones user).contains o.phone).map (·.pk)) w

/-- The calls of `enroll` for a user who becomes a member. -/
def enrollCalls (a : Enrolment) (w : World) : List (World × Uuid) :=
  match w.memberOf a.user, join site w a with
  | none, .ok joined =>
    let pks := (joined.bookings.filter fun b => b.customer == some a.user).map (·.pk)
    reconcileAllCalls digest site pks joined ++
      match reconcileAll digest site pks joined with
      | .error _ => []
      | .ok settled => applyForUserCalls digest site a.user settled
  | _, _ => []

end

end Apartments.Loyalty
