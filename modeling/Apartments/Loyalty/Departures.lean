import Apartments.Loyalty.Calculation
import Mathlib.Tactic.SplitIfs

/-!
# The end of a stay (`loyalty/stay.py`)

`departure_plan` prices what is left of a stay from the nights of its contract, and `record_departure` stores the
plan once. A departure is early before noon of the check-out date in the time zone of the property. Dates are day
numbers and instants are seconds; what the plan is told of arrival, payment and exchange (`effective_arrival`,
`booking_facts`, `_contract`) is a field of `Departing`.
-/

namespace Apartments.Loyalty

/-- A time zone: the instant of a local wall time, and the local wall time of an instant. -/
structure Zone where
  instant : ℕ → Time
  wall : Time → ℕ

/-- `datetime.combine(day, time.min, zone) + timedelta(hours=hour)`. -/
def Zone.moment (z : Zone) (day hour : ℕ) : Time := z.instant (day * 86400 + hour * 3600)

/-- `ZoneInfo(name)`, with the two zones the code falls back to. -/
structure Zones where
  info : String → Option Zone
  casablanca : Zone
  riyadh : Zone
  info_casablanca : info "Africa/Casablanca" = some casablanca
  info_riyadh : info "Asia/Riyadh" = some riyadh

structure Night where
  date : ℕ
  value : Dec
deriving DecidableEq

/-- `priced_nights`; a missing key is `none`, or the empty list. -/
structure PricedNights where
  currency : Option String
  reference : Option String
  nights : List Night
deriving DecidableEq

/-- What `booking_facts` answers without a blocker. -/
structure PaymentFacts where
  total : Dec
  points : Dec
  cash : Dec
  refunded : Dec
  components : List (String × Dec)
deriving DecidableEq

/-- The quote of the booking's intent. -/
structure DepartureQuote where
  checkIn : ℕ
  checkOut : ℕ
  totalPrice : Dec
  nightPrices : Option PricedNights
deriving DecidableEq

/-- What `record_departure` is given, and what it reads of the booking besides its stay. -/
structure Departing where
  permitted : Bool
  bookingAllowed : Bool
  operator : ℕ
  reference : String
  now : Time
  vacatedAt : Time
  naive : Bool
  arrivedAt : Option Time
  facts : Option PaymentFacts
  contract : Except Refusal (Dec × Dec)
  nights : ℕ
  pricedNights : Option PricedNights
  quote : Option DepartureQuote
deriving DecidableEq

/-- The stay of the booking: its contract and the time zone of its property, if it has one. -/
structure StayTerms where
  checkIn : ℕ
  checkOut : ℕ
  totalPrice : Dec
  currency : String
  timeZoneName : Option String
deriving DecidableEq

/-- `loyalty_state["departure_settlement"]`. -/
structure DepartureSettlement where
  settlementTotal : Dec
  pricedNightsReference : String
  cashRefund : Dec
  pointsRefund : Dec
  consumedCashLodging : Dec
  refundableTotal : Dec
  normal : Bool
  vacatedAt : Time
  reference : String
  operator : ℕ
deriving DecidableEq

/-- `refund_split`. -/
def refundSplit (refundable cash points : Dec) : Except Refusal (Dec × Dec) := do
  let r ← cents refundable
  let c ← cents cash
  let p ← cents points
  raiseIf (c + p < r) (.value "الاسترداد يتجاوز الدفع الأصلي.")
  let part := r * c / (c + p)
  return (amount part, amount (r - part))

/-- The night has not begun at the local time `wall`. -/
def unused (wall : ℕ) (n : Night) : Bool :=
  decide (wall / 86400 < n.date) || (n.date == wall / 86400 && decide (wall % 86400 / 3600 < 20))

/-- The loop of `departure_refund` for a guest who had arrived. -/
def departureRefund (wall : ℕ) : List ℕ → ℕ → List Night → Except Refusal Dec
  | _, total, [] => .ok (amount total)
  | dates, total, n :: nights => do
    raiseIf (n.date ∈ dates) (.value "قائمة الليالي مكررة.")
    let value ← cents n.value
    departureRefund wall (n.date :: dates) (if unused wall n then total + value else total) nights

/-- `to_sar`. -/
def toSar (s : StayTerms) (contract : Except Refusal (Dec × Dec)) (value : Dec) : Except Refusal Dec :=
  if s.currency = "SAR" then do
    raiseIf (value < 0) (.value "invalid_amount")
    return Dec.quantize 2 value
  else do
    let (source, sar) ← contract
    if source = 0 then do
      raiseIf (value ≠ 0) (.validation "لا تحويل لقيمة غير صفرية عن عقد صفري.")
      return 0
    else return Dec.quantize 2 (value * sar / source)

/-- `stay_times`: the zone of the property, and noon of the check-out date. -/
def stayEnd (zones : Zones) (s : StayTerms) : Except Refusal (Zone × Time) :=
  match s.timeZoneName with
  | none => .error (.validation "منطقة العقار الزمنية غير موثقة.")
  | some name => do
    raiseIf (name = "") (.validation "منطقة العقار الزمنية غير موثقة.")
    let zone ← found (zones.info name) (.value ("No time zone found with key " ++ name))
    return (zone, zone.moment s.checkOut 12)

/-- The prices of the nights: those of the booking, then those quoted for the same stay, then those of the one night. -/
def contractedNights (s : StayTerms) (d : Departing) : Option PricedNights :=
  match d.pricedNights with
  | some priced => some priced
  | none =>
    match (d.quote.filter fun q =>
        q.checkIn == s.checkIn && q.checkOut == s.checkOut && q.totalPrice == s.totalPrice).bind (·.nightPrices) with
    | some priced => some priced
    | none =>
      if d.nights = 1 then
        some ⟨some s.currency, some "single-night-contract", [⟨s.checkIn, s.totalPrice⟩]⟩
      else none

/-- The prices name every night of the stay once, in order, and add up to its price. -/
def coversStay (s : StayTerms) (p : PricedNights) : Bool :=
  p.nights.map (·.date) == (List.range (s.checkOut - s.checkIn)).map (s.checkIn + ·) &&
    (p.nights.map (·.value)).sum == s.totalPrice && p.currency == some s.currency && (p.reference.getD "") != ""

/-- The reference of the prices, and the part of the price that the departure leaves unused. -/
def unusedPart (s : StayTerms) (d : Departing) (zone : Zone) (normal : Bool) : Except Refusal (String × Dec) :=
  if normal then .ok ("completed-contract", 0)
  else do
    let priced := (contractedNights s d).getD ⟨none, none, []⟩
    raiseIf (coversStay s priced = false)
      (.validation "أسعار هذا الحجز القديم غير مكتملة؛ لم نحسب استردادًا تقديريًا أو نغيّر الحجز.")
    let refund ← departureRefund (zone.wall d.vacatedAt) [] 0 priced.nights
    let refundable ← toSar s d.contract refund
    return (priced.reference.getD "", refundable)

/-- `departure_plan`, with what `record_departure` adds to the plan. -/
def departurePlan (zones : Zones) (s : StayTerms) (d : Departing) : Except Refusal DepartureSettlement := do
  let arrived ← found d.arrivedAt
    (.validation "لم يحل وقت الدخول المعتمد؛ يمكن للإدارة توثيق الوصول قبل الموعد.")
  raiseIf (d.naive = true ∨ d.now < d.vacatedAt) (.validation "وقت المغادرة يجب أن يكون فعليًا، لا وقتًا مستقبليًا.")
  raiseIf (d.vacatedAt < arrived) (.validation "المغادرة لا تسبق الوصول.")
  let original ← found d.facts
    (.validation "يلزم حجز مؤهل وسداد إلكتروني موثق وعضوية نشطة لحساب التسوية.")
  let price ← toSar s d.contract s.totalPrice
  raiseIf (original.total ≠ price) (.validation "يلزم تطابق قيمة الحجز بالريال قبل إنهاء الإقامة.")
  raiseIf (original.components.any (fun p => p.1 != "baseRate" && p.2 != 0) = true)
    (.validation "توزيع استرداد المكونات الإضافية يحتاج مراجعة.")
  let fundedCash := original.total - original.points
  raiseIf (fundedCash < 0 ∨ original.cash - original.refunded < fundedCash)
    (.validation "توزيع الدفع الأصلي غير مكتمل.")
  let (zone, noon) ← stayEnd zones s
  let normal := decide (noon ≤ d.vacatedAt)
  let (reference, refundable) ← unusedPart s d zone normal
  let (cash, points) ← refundSplit refundable fundedCash original.points
  return { settlementTotal := original.total
           pricedNightsReference := reference
           cashRefund := cash
           pointsRefund := points
           consumedCashLodging := fundedCash - cash
           refundableTotal := refundable
           normal := normal
           vacatedAt := d.vacatedAt
           reference := d.reference
           operator := d.operator }

/-- `record_departure` on the plan stored so far. -/
def recordDeparture (zones : Zones) (s : StayTerms) (stored : Option DepartureSettlement) (d : Departing) :
    Except Refusal DepartureSettlement := do
  raiseIf (d.permitted = false) (.permission "تأكيد المغادرة للإدارة المخولة فقط.")
  raiseIf (d.bookingAllowed = false) (.permission "الحجز خارج نطاق التجربة الخاصة.")
  raiseIf (d.reference = "") (.validation "يلزم مرجع موثق.")
  let result ← departurePlan zones s d
  let _ ← cents result.consumedCashLodging
  raiseIf (stored.any (· != result) = true) (.validation "المغادرة موثقة بالفعل ولا تستبدل بصمت.")
  return result

/-! ### When a departure counts as early -/

theorem stayEnd_ok {zones : Zones} {s : StayTerms} {zone : Zone} {noon : Time}
    (h : stayEnd zones s = .ok (zone, noon)) :
    ∃ name, s.timeZoneName = some name ∧ zones.info name = some zone ∧ noon = zone.moment s.checkOut 12 := by
  unfold stayEnd at h
  cases hname : s.timeZoneName with
  | none => simp [hname] at h
  | some name =>
    rw [hname] at h
    refine ⟨name, rfl, ?_⟩
    have hspec : Outcome (stayEnd zones s) (fun p => zones.info name = some p.1 ∧ p.2 = p.1.moment s.checkOut 12)
        fun _ => True := by
      simp only [stayEnd, hname]
      exact .guard trivial fun _ => .lookup trivial fun z hz => .of_pure ⟨hz, rfl⟩
    exact hspec.of_eq_ok (by simpa only [stayEnd, hname] using h)

theorem departurePlan_spec (zones : Zones) (s : StayTerms) (d : Departing) :
    Outcome (departurePlan zones s d)
      (fun p => ∃ zone noon, stayEnd zones s = .ok (zone, noon) ∧ p.normal = decide (noon ≤ d.vacatedAt))
      fun _ => True := by
  unfold departurePlan
  refine .lookup trivial fun arrived _ => .guard trivial fun _ => .guard trivial fun _ => ?_
  refine .lookup trivial fun original _ => ?_
  refine .bind (.any _) fun price _ => .guard trivial fun _ => .guard trivial fun _ => .guard trivial fun _ => ?_
  refine .bind_eq (.any _) fun ends hends _ => ?_
  obtain ⟨zone, noon⟩ := ends
  refine .bind (.any _) fun priced _ => .bind (.any _) fun split _ => ?_
  exact .of_pure ⟨zone, noon, hends, rfl⟩

/-- A plan is early exactly if the departure was before noon of the check-out date. -/
theorem recordDeparture_normal {zones : Zones} {s : StayTerms} {stored : Option DepartureSettlement} {d : Departing}
    {p : DepartureSettlement} (h : recordDeparture zones s stored d = .ok p) :
    ∃ zone noon, stayEnd zones s = .ok (zone, noon) ∧ (p.normal = false ↔ d.vacatedAt < noon) := by
  have hspec : Outcome (recordDeparture zones s stored d)
      (fun p => ∃ zone noon, stayEnd zones s = .ok (zone, noon) ∧ p.normal = decide (noon ≤ d.vacatedAt))
      fun _ => True := by
    unfold recordDeparture
    refine .guard trivial fun _ => .guard trivial fun _ => .guard trivial fun _ => ?_
    refine .bind (departurePlan_spec zones s d) fun result hresult => .bind (.any _) fun _ _ => ?_
    exact .guard trivial fun _ => .of_pure hresult
  obtain ⟨zone, noon, hends, hnormal⟩ := hspec.of_eq_ok h
  exact ⟨zone, noon, hends, by rw [hnormal, decide_eq_false_iff_not, not_le]⟩

/-- A stored plan is answered again, and never replaced. -/
theorem recordDeparture_stored {zones : Zones} {s : StayTerms} {stored p : DepartureSettlement} {d : Departing}
    (h : recordDeparture zones s (some stored) d = .ok p) : p = stored := by
  have hspec : Outcome (recordDeparture zones s (some stored) d) (fun p => p = stored) fun _ => True := by
    unfold recordDeparture
    refine .guard trivial fun _ => .guard trivial fun _ => .guard trivial fun _ => ?_
    refine .bind (.any _) fun result _ => .bind (.any _) fun _ _ => .guard trivial fun hsame => ?_
    exact .of_pure (by simpa using (show stored = result by simpa using hsame).symm)
  exact hspec.of_eq_ok h

end Apartments.Loyalty
