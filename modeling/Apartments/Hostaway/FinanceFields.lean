import Apartments.Decimals
import Apartments.Lib.Table
import Apartments.Lib.Traverse

/-!
# The price fields of a reservation

The finance fields that go to the channel are made of the components of a quote when a reservation is created, and of the
snapshot of a change request when it is changed. A total that the owner agreed on is reached by one of the fields, which
takes the whole difference: `Answers` says which field that is and what becomes of it. Decimal arithmetic has 28 digits, so
the fields add up as far as the sums of the owner have no more.
-/

namespace Apartments.Finance

/-- `PriceComponent`; of a validated response every total and flag is there. -/
structure PriceComponent where
  listingFeeSettingId : Option ℕ
  type : String
  name : String
  title : String
  aliasName : String
  quantity : Option ℕ
  value : Decimal
  total : Option Decimal
  isIncludedInTotal : Option Bool
  isMandatory : Option Bool
  isDeleted : Option Bool
deriving DecidableEq

structure PriceQuote where
  totalPrice : Decimal
  components : List PriceComponent
deriving DecidableEq

structure ReservationFinanceField where
  listingFeeSettingId : Option ℕ
  type : String
  name : String
  title : String
  aliasName : String
  quantity : Option ℕ
  value : Dec
  total : Dec
  isIncludedInTotalPrice : Bool
  isOverriddenByUser : Bool
  isMandatory : Option Bool
  isDeleted : Bool
deriving DecidableEq

/-- A `ValueError`, or a signal of the decimal context. -/
inductive Failure
  | value (text : String)
  | signal (trap : Decimal.Trap)
deriving DecidableEq, Repr

/-- `s[:n]`. -/
def clip (n : ℕ) (s : String) : String := String.ofList (s.toList.take n)

/-! ### From the quote -/

/-- `ReservationFinanceField.from_price_component`. -/
def fromPriceComponent (c : PriceComponent) : Except Failure ReservationFinanceField :=
  match c.total, c.isIncludedInTotal, c.isDeleted with
  | none, _, _ => .error (.value "price_component_total_missing")
  | some total, some included, some deleted => .ok {
      listingFeeSettingId := c.listingFeeSettingId
      type := c.type
      name := c.name
      title := c.title
      aliasName := c.aliasName
      quantity := c.quantity
      value := c.value.value
      total := total.value
      isIncludedInTotalPrice := included
      isOverriddenByUser := false
      isMandatory := c.isMandatory
      isDeleted := deleted }
  | some _, _, _ => .error (.value "price_component_flags_missing")

/-! ### By way of the snapshot -/

/-- An entry of `operational_components`. -/
structure OperationalComponent where
  listingFeeSettingId : Option ℕ
  type : String
  name : String
  title : String
  aliasName : String
  quantity : Option ℕ
  value : String
  total : Option String
  isIncludedInTotal : Option Bool
  isMandatory : Option Bool
  isDeleted : Option Bool
deriving DecidableEq

/-- What a quote snapshot keeps of the price. -/
structure QuoteSnapshot where
  systemTotal : String
  operationalComponents : List OperationalComponent
  ownerFinalTotal : Option String
deriving DecidableEq

/-- The entry that `_persist_priced_request` writes. -/
def operationalComponent (c : PriceComponent) : OperationalComponent where
  listingFeeSettingId := c.listingFeeSettingId
  type := clip 50 c.type
  name := clip 100 c.name
  title := clip 200 c.title
  aliasName := clip 100 c.aliasName
  quantity := c.quantity
  value := c.value.format
  total := c.total.map Decimal.format
  isIncludedInTotal := c.isIncludedInTotal
  isMandatory := c.isMandatory
  isDeleted := c.isDeleted

def persistPricedRequest (quote : PriceQuote) : QuoteSnapshot :=
  ⟨quote.totalPrice.format, quote.components.map operationalComponent, none⟩

/-- `_system_total_from_snapshot`; `fallback` is the total of the request. -/
def systemTotalFromSnapshot (s : QuoteSnapshot) (fallback : Decimal) : Decimal :=
  match Decimal.parse s.systemTotal with
  | some (.finite d) => d
  | _ => fallback

/-- What `set_owner_final_total` writes into the snapshot. -/
def setOwnerFinalTotal (s : QuoteSnapshot) (fallback finalTotal : Decimal) : QuoteSnapshot :=
  { s with
    systemTotal := (systemTotalFromSnapshot s fallback).format
    ownerFinalTotal := some finalTotal.format }

/-- The decimal of a stored text; one that is not finite is refused when the payload is written. -/
def storedDecimal (text : Option String) : Except Failure Dec :=
  match text.bind Decimal.parse with
  | some (.finite d) => .ok d.value
  | some .special => .error (.value "financial_value_not_finite")
  | none => .error (.value "price_component_invalid")

/-- `_finance_field`. -/
def financeField (item : OperationalComponent) : Except Failure ReservationFinanceField := do
  let value ← storedDecimal (some item.value)
  let total ← storedDecimal item.total
  match item.isIncludedInTotal, item.isDeleted with
  | some included, some deleted => return {
      listingFeeSettingId := item.listingFeeSettingId
      type := clip 50 item.type
      name := clip 100 item.name
      title := clip 200 item.title
      aliasName := clip 100 item.aliasName
      quantity := item.quantity
      value
      total
      isIncludedInTotalPrice := included
      isOverriddenByUser := false
      isMandatory := item.isMandatory
      isDeleted := deleted }
  | _, _ => .error (.value "price_component_flags_missing")

/-! ### The total of the owner -/

/-- A result of decimal arithmetic. -/
def computed (x : Except Decimal.Trap Dec) : Except Failure Dec :=
  match x with
  | .ok y => .ok y
  | .error trap => .error (.signal trap)

/-- `field.quantity or 1`. -/
def ReservationFinanceField.units (f : ReservationFinanceField) : ℕ :=
  match f.quantity with
  | some (n + 1) => n + 1
  | _ => 1

/-- The key of the preference: the base rate comes first. -/
def ReservationFinanceField.rank (f : ReservationFinanceField) : ℕ := if Text.casefold f.name = "baserate" then 0 else 1

/-- The loop over the preferred fields. -/
def applyDifference (financeFields : List ReservationFinanceField) (difference : Dec) :
    List (ReservationFinanceField × ℕ) → Except Failure (List ReservationFinanceField)
  | [] => .error (.value "manual_price_cannot_be_applied")
  | (field, index) :: rest =>
    if field.isIncludedInTotalPrice = false ∨ field.isDeleted = true then applyDifference financeFields difference rest
    else do
      let adjustedTotal ← computed (Decimal.rounded (field.total + difference))
      if adjustedTotal < 0 then applyDifference financeFields difference rest
      else do
        let adjustedValue ← computed (Decimal.divide adjustedTotal field.units)
        return financeFields.zipIdx.map fun candidate =>
          if candidate.2 = index then
            { field with value := adjustedValue, total := adjustedTotal, isOverriddenByUser := true }
          else candidate.1

/-- `_override_price_details`. -/
def overridePriceDetails (financeFields : List ReservationFinanceField) (currentTotal finalTotal : Dec) :
    Except Failure (List ReservationFinanceField) := do
  let difference ← computed (Decimal.rounded (finalTotal - currentTotal))
  applyDifference financeFields difference (financeFields.zipIdx.insertionSort fun a b => a.1.rank ≤ b.1.rank)

/-- The finance fields of `build_hostaway_reservation_request`. -/
def createFields (quote : PriceQuote) (totalPrice : Dec) (allowManualPriceOverride : Bool) :
    Except Failure (List ReservationFinanceField) := do
  let financeFields ← quote.components.mapM fromPriceComponent
  if quote.totalPrice.value ≠ totalPrice then do
    raiseIf (allowManualPriceOverride = false) (.value "revalidated_price_changed")
    overridePriceDetails financeFields quote.totalPrice.value totalPrice
  else return financeFields

/-- The finance fields of `_build_update_request`. -/
def updateFields (s : QuoteSnapshot) (newTotal : Dec) : Except Failure (List ReservationFinanceField) := do
  raiseIf (s.operationalComponents = []) (.value "price_components_missing")
  let financeFields ← s.operationalComponents.mapM financeField
  if s.ownerFinalTotal.isSome then
    match Decimal.parse s.systemTotal with
    | some (.finite d) => overridePriceDetails financeFields d.value newTotal
    | _ => .error (.signal .invalidOperation)
  else return financeFields

/-! ### What the override does -/

/-- The totals that make up the price. -/
def includedTotal (fields : List ReservationFinanceField) : Dec :=
  Table.total (fun f => f.isIncludedInTotalPrice && !f.isDeleted) (·.total) fields

def PriceQuote.includedTotal (quote : PriceQuote) : Dec :=
  Table.total (fun c => c.isIncludedInTotal == some true && c.isDeleted == some false)
    (fun c => (c.total.map Decimal.value).getD 0) quote.components

/-- A result that needs no rounding. -/
def Kept (x : Dec) : Prop := Decimal.rounded x = .ok x

/-- The field can take the difference. -/
structure Absorbs (difference : Dec) (f : ReservationFinanceField) : Prop where
  included : f.isIncludedInTotalPrice = true
  present : f.isDeleted = false
  nonneg : 0 ≤ f.total + difference

/-- The field after it took the difference; its value is the total for one of its units, as far as 28 digits say it. -/
structure Overridden (difference : Dec) (f f' : ReservationFinanceField) : Prop where
  absorbs : Absorbs difference f
  same : f' = { f with value := f'.value, total := f.total + difference, isOverriddenByUser := true }
  nonneg : 0 ≤ f'.total ∧ 0 ≤ f'.value
  value : Decimal.rounded (f'.total / f.units) = .ok f'.value
  exact : f'.value * f.units = f'.total ↔ Kept (f'.total / f.units)

/-- The override raises when no field can take the difference. Otherwise one of the fields takes it, a base rate if one can,
and the totals that are included come to the final one. -/
def Answers (fields : List ReservationFinanceField) (currentTotal finalTotal : Dec)
    (result : Except Failure (List ReservationFinanceField)) : Prop :=
  (result = .error (.value "manual_price_cannot_be_applied") ∧ ∀ f ∈ fields, ¬Absorbs (finalTotal - currentTotal) f) ∨
  ∃ before f after f', fields = before ++ f :: after ∧ Overridden (finalTotal - currentTotal) f f' ∧
    (∀ g ∈ fields, Absorbs (finalTotal - currentTotal) g → f.rank ≤ g.rank) ∧
    result = .ok (before ++ f' :: after) ∧ includedTotal (before ++ f' :: after) = finalTotal

section
variable {x y : Dec} {n : ℕ} {difference currentTotal finalTotal : Dec} {f f' g : ReservationFinanceField}
  {fields : List ReservationFinanceField} {c : PriceComponent} {quote : PriceQuote}

theorem roundHalfEven_le (x : Dec) : (Dec.roundHalfEven x : Dec) ≤ x + 1 / 2 := by
  have hle := Int.floor_le x
  unfold Dec.roundHalfEven
  split_ifs with h
  · linarith
  · rw [not_or, not_lt] at h
    push_cast
    linarith [h.1]

theorem roundHalfEven_nonneg (hx : 0 ≤ x) : 0 ≤ Dec.roundHalfEven x := by
  have hfloor : 0 ≤ ⌊x⌋ := Int.floor_nonneg.2 hx
  unfold Dec.roundHalfEven
  split_ifs <;> omega

/-- A share of an amount in the range of the context is in its range, too. -/
theorem rounded_div (hx : 0 ≤ x) (h : Kept x) (hn : 0 < n) : ∃ y, Decimal.rounded (x / n) = .ok y := by
  rcases hx.eq_or_lt with rfl | hpos
  · exact ⟨0, by rw [zero_div]; rfl⟩
  rcases Nat.lt_or_ge 1 n with hmany | hone
  swap
  · obtain rfl : n = 1 := by omega
    exact ⟨x, by rw [Nat.cast_one, div_one]; exact h⟩
  have hrange : Int.log 10 x ≤ 999999 := by
    unfold Kept Decimal.rounded at h
    dsimp only at h
    rw [if_neg hpos.ne'] at h
    split_ifs at h with hover
    have hsame := Except.ok.inj h
    rw [hsame, abs_of_pos hpos] at hover
    exact not_lt.1 hover
  have hn' : (2 : Dec) ≤ n := by exact_mod_cast hmany
  have hz : 0 < x / n := div_pos hpos (by linarith)
  have hhalf : x / n ≤ x / 2 := div_le_div_of_nonneg_left hpos.le (by norm_num) hn'
  unfold Decimal.rounded
  rw [if_neg hz.ne', abs_of_pos hz]
  dsimp only
  generalize hz' : x / (n : Dec) = z at hz hhalf
  generalize hplaces : min (27 - Int.log 10 z) 1000026 = places
  have h10 : (0 : Dec) < 10 ^ places := zpow_pos (by norm_num) _
  have hround := roundHalfEven_le (z * 10 ^ places)
  generalize hy : (Dec.roundHalfEven (z * 10 ^ places) : Dec) / 10 ^ places = y
  have hyle : y ≤ z + 10 ^ (-places) / 2 := by
    rw [← hy, div_le_iff₀ h10, add_mul, zpow_neg, div_mul_eq_mul_div, inv_mul_cancel₀ h10.ne']
    exact hround
  have hnonneg : 0 ≤ y := by
    rw [← hy]
    exact div_nonneg (by exact_mod_cast roundHalfEven_nonneg (mul_nonneg hz.le h10.le)) h10.le
  have hlog : ¬999999 < Int.log 10 |y| := by
    rw [not_lt, abs_of_nonneg hnonneg]
    rcases hnonneg.eq_or_lt with rfl | hypos
    · rw [Int.log_of_right_le_zero _ le_rfl]
      norm_num
    rcases le_total (27 - Int.log 10 z) 1000026 with hle | hge
    · -- the last place is far below the share, which is at most half of the amount
      rw [min_eq_left hle] at hplaces
      have hplace : (10 : Dec) ^ (-places) ≤ 10 ^ Int.log 10 z :=
        zpow_le_zpow_right₀ (by norm_num) (by omega)
      have hself : (10 : Dec) ^ Int.log 10 z ≤ z := Int.zpow_log_le_self (by norm_num) hz
      have hyx : y ≤ x := by linarith
      exact (Int.log_mono_right hypos hyx).trans hrange
    · rw [min_eq_right hge] at hplaces
      have hplace : (10 : Dec) ^ (-places) ≤ 10 ^ (0 : ℤ) := zpow_le_zpow_right₀ (by norm_num) (by omega)
      have hself : z < 10 ^ (Int.log 10 z + 1) := Int.lt_zpow_succ_log_self (by norm_num) z
      have hsmall : (10 : Dec) ^ (Int.log 10 z + 1) ≤ 10 ^ (0 : ℤ) := zpow_le_zpow_right₀ (by norm_num) (by omega)
      rw [zpow_zero] at hplace hsmall
      have hten : y < ((10 : ℕ) : Dec) ^ (1 : ℤ) := by
        rw [zpow_one]
        push_cast
        linarith
      have hlt := (Int.lt_zpow_iff_log_lt (by norm_num) hypos).1 hten
      omega
  rw [if_neg hlog]
  exact ⟨y, rfl⟩

/-! ### The loop over the preferred fields -/

theorem units_pos (f : ReservationFinanceField) : 0 < f.units := by
  unfold ReservationFinanceField.units
  split <;> omega

/-- The field that takes the difference. -/
theorem overridden_of (habsorbs : Absorbs difference f) (hkept : Kept (f.total + difference)) :
    ∃ value, Decimal.divide (f.total + difference) f.units = .ok value ∧
      Overridden difference f { f with value := value, total := f.total + difference, isOverriddenByUser := true } := by
  have hunits : (f.units : Dec) ≠ 0 := Nat.cast_ne_zero.2 (units_pos f).ne'
  obtain ⟨value, hvalue⟩ := rounded_div habsorbs.nonneg hkept (units_pos f)
  have hnonneg : 0 ≤ value := Decimal.rounded_nonneg (div_nonneg habsorbs.nonneg (Nat.cast_nonneg _)) hvalue
  refine ⟨value, ?_, habsorbs, rfl, ⟨habsorbs.nonneg, hnonneg⟩, hvalue, ?_⟩
  · rw [Decimal.divide, if_neg hunits]
    exact hvalue
  · dsimp only
    rw [Kept, hvalue, Except.ok.injEq, eq_div_iff hunits]

theorem map_zipIdx_eq_set {i : ℕ} :
    (fields.zipIdx.map fun candidate => if candidate.2 = i then f else candidate.1) = fields.set i f := by
  refine List.ext_getElem (by simp) fun j hj hj' => ?_
  rw [List.getElem_map, List.getElem_zipIdx, List.getElem_set]
  simp [eq_comm]

/-- The loop stops at the first field that can take the difference. -/
theorem applyDifference_spec (fields : List ReservationFinanceField) {order : List (ReservationFinanceField × ℕ)}
    (hkept : ∀ x ∈ order, x.1.isIncludedInTotalPrice = true → x.1.isDeleted = false → Kept (x.1.total + difference)) :
    (applyDifference fields difference order = .error (.value "manual_price_cannot_be_applied") ∧
      ∀ x ∈ order, ¬Absorbs difference x.1) ∨
    ∃ seen x rest f', order = seen ++ x :: rest ∧ (∀ y ∈ seen, ¬Absorbs difference y.1) ∧ Overridden difference x.1 f' ∧
      applyDifference fields difference order = .ok (fields.set x.2 f') := by
  induction order with
  | nil => exact .inl ⟨rfl, by simp⟩
  | cons x order ih =>
    obtain ⟨f, i⟩ := x
    obtain ⟨hhead, hrest⟩ := List.forall_mem_cons.1 hkept
    -- the field is passed over
    have hskip : ¬Absorbs difference f →
        applyDifference fields difference ((f, i) :: order) = applyDifference fields difference order →
        (applyDifference fields difference ((f, i) :: order) = .error (.value "manual_price_cannot_be_applied") ∧
          ∀ x ∈ (f, i) :: order, ¬Absorbs difference x.1) ∨
        ∃ seen x rest f', (f, i) :: order = seen ++ x :: rest ∧ (∀ y ∈ seen, ¬Absorbs difference y.1) ∧
          Overridden difference x.1 f' ∧
          applyDifference fields difference ((f, i) :: order) = .ok (fields.set x.2 f') := by
      intro hnot hsame
      rw [hsame]
      rcases ih hrest with ⟨hnone, hall⟩ | ⟨seen, x, rest, f', rfl, hseen, hx, hresult⟩
      · exact .inl ⟨hnone, List.forall_mem_cons.2 ⟨hnot, hall⟩⟩
      · exact .inr ⟨(f, i) :: seen, x, rest, f', rfl, List.forall_mem_cons.2 ⟨hnot, hseen⟩, hx, hresult⟩
    by_cases hout : f.isIncludedInTotalPrice = false ∨ f.isDeleted = true
    · refine hskip (fun h => ?_) (by rw [applyDifference, if_pos hout])
      rcases hout with hout | hout
      · exact Bool.false_ne_true (hout.symm.trans h.included)
      · exact Bool.false_ne_true (h.present.symm.trans hout)
    · have hincluded : f.isIncludedInTotalPrice = true := Bool.not_eq_false _ ▸ fun h => hout (.inl h)
      have hpresent : f.isDeleted = false := Bool.not_eq_true _ ▸ fun h => hout (.inr h)
      have hsum : Decimal.rounded (f.total + difference) = .ok (f.total + difference) := hhead hincluded hpresent
      have hstep : applyDifference fields difference ((f, i) :: order) =
          if f.total + difference < 0 then applyDifference fields difference order
          else do
            let adjustedValue ← computed (Decimal.divide (f.total + difference) f.units)
            return fields.zipIdx.map fun candidate =>
              if candidate.2 = i then
                { f with value := adjustedValue, total := f.total + difference, isOverriddenByUser := true }
              else candidate.1 := by
        rw [applyDifference, if_neg hout, hsum]
        rfl
      by_cases hneg : f.total + difference < 0
      · exact hskip (fun h => absurd hneg (not_lt.2 h.nonneg)) (by rw [hstep, if_pos hneg])
      · obtain ⟨value, hvalue, hover⟩ := overridden_of ⟨hincluded, hpresent, not_lt.1 hneg⟩ hsum
        refine .inr ⟨[], (f, i), order, _, rfl, by simp, hover, ?_⟩
        rw [hstep, if_neg hneg, hvalue]
        exact congrArg Except.ok map_zipIdx_eq_set

theorem includedTotal_overridden {before after : List ReservationFinanceField} (h : Overridden difference f f') :
    includedTotal (before ++ f' :: after) = includedTotal (before ++ f :: after) + difference := by
  have hold : (f.isIncludedInTotalPrice && !f.isDeleted) = true := by rw [h.absorbs.included, h.absorbs.present]; rfl
  have hnew : (f'.isIncludedInTotalPrice && !f'.isDeleted) = true := by rw [h.same]; exact hold
  have htotal : f'.total = f.total + difference := by rw [h.same]
  unfold includedTotal
  rw [Table.total_append, Table.total_append, Table.total_cons, Table.total_cons, if_pos hold, if_pos hnew, htotal]
  ring

theorem overridePriceDetails_answers (hsum : includedTotal fields = currentTotal)
    (hdifference : Kept (finalTotal - currentTotal))
    (hkept : ∀ f ∈ fields, f.isIncludedInTotalPrice = true → f.isDeleted = false →
      Kept (f.total + (finalTotal - currentTotal))) :
    Answers fields currentTotal finalTotal (overridePriceDetails fields currentTotal finalTotal) := by
  have hresult : overridePriceDetails fields currentTotal finalTotal = applyDifference fields (finalTotal - currentTotal)
      (fields.zipIdx.insertionSort fun a b => a.1.rank ≤ b.1.rank) := by
    rw [overridePriceDetails, show Decimal.rounded _ = _ from hdifference]
    rfl
  have hsort : ∀ x : ReservationFinanceField × ℕ,
      x ∈ fields.zipIdx.insertionSort (fun a b => a.1.rank ≤ b.1.rank) ↔ fields[x.2]? = some x.1 := fun x => by
    rw [List.mem_insertionSort, List.mem_zipIdx_iff_getElem?]
  have hsorted : (fields.zipIdx.insertionSort fun a b => a.1.rank ≤ b.1.rank).Pairwise fun a b => a.1.rank ≤ b.1.rank :=
    List.pairwise_insertionSort _ _
  rw [hresult]
  generalize fields.zipIdx.insertionSort (fun a b => a.1.rank ≤ b.1.rank) = order at hsort hsorted ⊢
  rcases applyDifference_spec fields fun x hx => hkept x.1 (List.mem_of_getElem? ((hsort x).1 hx)) with
    ⟨hnone, hall⟩ | ⟨seen, x, rest, f', horder, hseen, hx, hsome⟩
  · refine .inl ⟨hnone, fun f hf => ?_⟩
    obtain ⟨i, hi⟩ := List.mem_iff_getElem?.1 hf
    exact hall (f, i) ((hsort _).2 hi)
  · have hget : fields[x.2]? = some x.1 := (hsort x).1 (horder ▸ List.mem_append_right _ List.mem_cons_self)
    obtain ⟨hlt, hx'⟩ := List.getElem?_eq_some_iff.1 hget
    obtain ⟨before, after, hsplit, hset⟩ : ∃ before after, fields = before ++ x.1 :: after ∧
        fields.set x.2 f' = before ++ f' :: after := by
      refine ⟨fields.take x.2, fields.drop (x.2 + 1), ?_, ?_⟩
      · rw [← hx', ← List.drop_eq_getElem_cons hlt, List.take_append_drop]
      · rw [List.set_eq_take_append_cons_drop, if_pos hlt]
    refine .inr ⟨before, x.1, after, f', hsplit, hx, fun g hg hab => ?_, by rw [hsome, hset], ?_⟩
    · -- a field of a smaller rank would have come first
      obtain ⟨i, hi⟩ := List.mem_iff_getElem?.1 hg
      have hin : (g, i) ∈ seen ++ x :: rest := horder ▸ (hsort (g, i)).2 hi
      rw [horder, List.pairwise_append, List.pairwise_cons] at hsorted
      rcases List.mem_append.1 hin with hin | hin
      · exact absurd hab (hseen _ hin)
      · rcases List.mem_cons.1 hin with heq | hin
        · rw [← heq]
        · exact hsorted.2.1.1 (g, i) hin
    · rw [includedTotal_overridden hx, ← hsplit, hsum]
      exact add_sub_cancel currentTotal finalTotal

/-! ### Both ways to the fields -/

/-- The texts as the snapshot cuts them. -/
def ReservationFinanceField.clipped (f : ReservationFinanceField) : ReservationFinanceField :=
  { f with
    type := clip 50 f.type
    name := clip 100 f.name
    title := clip 200 f.title
    aliasName := clip 100 f.aliasName }

/-- The field by way of the snapshot is the one from the quote but for the cut texts, or both ways raise. -/
def SameField (direct stored : Except Failure ReservationFinanceField) : Prop :=
  (∃ f, direct = .ok f ∧ stored = .ok f.clipped) ∨ ∃ e e', direct = .error e ∧ stored = .error e'

theorem clip_clip (n : ℕ) (s : String) : clip n (clip n s) = clip n s := by
  unfold clip
  rw [String.toList_ofList, List.take_take, Nat.min_self]

theorem storedDecimal_format (d : Decimal) : storedDecimal (some d.format) = .ok d.value := by
  unfold storedDecimal
  rw [Option.bind_some, Decimal.parse_format]
  exact congrArg Except.ok (Decimal.value_plain d)

theorem financeField_operationalComponent (c : PriceComponent) :
    SameField (fromPriceComponent c) (financeField (operationalComponent c)) := by
  unfold SameField fromPriceComponent financeField operationalComponent
  dsimp only
  rw [storedDecimal_format]
  cases c.total with
  | none => exact .inr ⟨_, _, rfl, rfl⟩
  | some total =>
    rw [Option.map_some, storedDecimal_format]
    cases c.isIncludedInTotal with
    | none => exact .inr ⟨_, _, rfl, rfl⟩
    | some included =>
      cases c.isDeleted with
      | none => exact .inr ⟨_, _, rfl, rfl⟩
      | some deleted =>
        simp only [clip_clip]
        exact .inl ⟨_, rfl, rfl⟩

/-- The field has the total and the flags of the component. -/
structure Carries (c : PriceComponent) (f : ReservationFinanceField) : Prop where
  total : f.total = (c.total.map Decimal.value).getD 0
  included : c.isIncludedInTotal = some f.isIncludedInTotalPrice
  deleted : c.isDeleted = some f.isDeleted

theorem carries_direct (h : fromPriceComponent c = .ok f) : Carries c f := by
  unfold fromPriceComponent at h
  split at h
  · cases h
  · rename_i total included deleted htotal hincluded hdeleted
    obtain rfl := Except.ok.inj h
    exact ⟨by rw [htotal]; rfl, hincluded, hdeleted⟩
  · cases h

theorem carries_stored (h : financeField (operationalComponent c) = .ok f) : Carries c f := by
  rcases financeField_operationalComponent c with ⟨f₀, hdirect, hstored⟩ | ⟨e, e', -, hstored⟩
  · obtain rfl := Except.ok.inj (hstored.symm.trans h)
    have hcarries := carries_direct hdirect
    exact ⟨hcarries.total, hcarries.included, hcarries.deleted⟩
  · cases hstored.symm.trans h

theorem includedTotal_carried {components : List PriceComponent} (h : List.Forall₂ Carries components fields) :
    includedTotal fields = Table.total (fun c => c.isIncludedInTotal == some true && c.isDeleted == some false)
      (fun c => (c.total.map Decimal.value).getD 0) components := by
  induction h with
  | nil => rfl
  | @cons c f components fields hc _ ih =>
    have hflags : (c.isIncludedInTotal == some true && c.isDeleted == some false) =
        (f.isIncludedInTotalPrice && !f.isDeleted) := by
      rw [hc.included, hc.deleted]
      cases f.isIncludedInTotalPrice <;> cases f.isDeleted <;> rfl
    rw [Table.total_cons, hflags, ← hc.total, ← ih]
    exact Table.total_cons

/-- The owner's total can be computed without rounding. -/
structure Exact (quote : PriceQuote) (finalTotal : Dec) : Prop where
  difference : Kept (finalTotal - quote.totalPrice.value)
  totals : ∀ c ∈ quote.components, c.isIncludedInTotal = some true → c.isDeleted = some false →
    Kept ((c.total.map Decimal.value).getD 0 + (finalTotal - quote.totalPrice.value))

theorem carried_answers (h : List.Forall₂ Carries quote.components fields)
    (hsum : quote.includedTotal = quote.totalPrice.value) (hexact : Exact quote finalTotal) :
    includedTotal fields = quote.totalPrice.value ∧ Answers fields quote.totalPrice.value finalTotal
      (overridePriceDetails fields quote.totalPrice.value finalTotal) := by
  have htotal : includedTotal fields = quote.totalPrice.value := (includedTotal_carried h).trans hsum
  refine ⟨htotal, overridePriceDetails_answers htotal hexact.difference fun f hf hincluded hpresent => ?_⟩
  obtain ⟨i, hi, rfl⟩ := List.mem_iff_getElem.1 hf
  have hlt : i < quote.components.length := h.length_eq ▸ hi
  have hcarries : Carries quote.components[i] fields[i] := (List.forall₂_iff_get.1 h).2 i hlt hi
  rw [hcarries.total]
  exact hexact.totals _ (List.getElem_mem hlt) (hcarries.included.trans (congrArg some hincluded))
    (hcarries.deleted.trans (congrArg some hpresent))

theorem updateFields_unpriced {s : QuoteSnapshot} {newTotal : Dec} (hne : ¬s.operationalComponents = [])
    (h : s.operationalComponents.mapM financeField = .ok fields) (howner : s.ownerFinalTotal.isSome = false) :
    updateFields s newTotal = .ok fields := by
  rw [updateFields, raiseIf_of_not hne, h, howner]
  rfl

theorem updateFields_priced {s : QuoteSnapshot} {newTotal : Dec} {d : Decimal} (hne : ¬s.operationalComponents = [])
    (h : s.operationalComponents.mapM financeField = .ok fields) (howner : s.ownerFinalTotal.isSome = true)
    (hread : Decimal.parse s.systemTotal = some (.finite d)) :
    updateFields s newTotal = overridePriceDetails fields d.value newTotal := by
  rw [updateFields, raiseIf_of_not hne, h, howner, hread]
  rfl

theorem systemTotal_persisted (quote : PriceQuote) (fallback : Decimal) :
    systemTotalFromSnapshot (persistPricedRequest quote) fallback = quote.totalPrice.plain := by
  unfold systemTotalFromSnapshot persistPricedRequest
  dsimp only
  rw [Decimal.parse_format]

/-- Both ways make the same fields up to the cut texts. Their included totals are the total of the quote, and the override for
the final total of the owner answers on both; without one the fields are sent as they are. -/
theorem finance_fields_add_up {total : Decimal} (hsum : quote.includedTotal = quote.totalPrice.value)
    (hexact : Exact quote total.value) (fallback : Decimal) :
    (∀ c ∈ quote.components, SameField (fromPriceComponent c) (financeField (operationalComponent c))) ∧
    (∀ fields, quote.components.mapM fromPriceComponent = .ok fields → includedTotal fields = quote.totalPrice.value ∧
      (quote.totalPrice.value = total.value → createFields quote total.value true = .ok fields) ∧
      (quote.totalPrice.value ≠ total.value →
        Answers fields quote.totalPrice.value total.value (createFields quote total.value true))) ∧
    ∀ fields, (persistPricedRequest quote).operationalComponents.mapM financeField = .ok fields → quote.components ≠ [] →
      includedTotal fields = quote.totalPrice.value ∧
      updateFields (persistPricedRequest quote) quote.totalPrice.value = .ok fields ∧
      Answers fields quote.totalPrice.value total.value
        (updateFields (setOwnerFinalTotal (persistPricedRequest quote) fallback total) total.value) := by
  refine ⟨fun c _ => financeField_operationalComponent c, fun fields h => ?_, fun fields h hne => ?_⟩
  · obtain ⟨htotal, hanswers⟩ := carried_answers ((mapM_eq_ok.1 h).imp fun _ _ => carries_direct) hsum hexact
    refine ⟨htotal, fun hsame => ?_, fun hdiffer => ?_⟩
    · rw [createFields, h]
      exact if_neg (not_not.2 hsame)
    · have hcreate : createFields quote total.value true =
          overridePriceDetails fields quote.totalPrice.value total.value := by
        rw [createFields, h]
        exact if_pos hdiffer
      rw [hcreate]
      exact hanswers
  · have hstored : List.Forall₂ Carries quote.components fields :=
      (List.forall₂_map_left_iff.1 (mapM_eq_ok.1 h)).imp fun _ _ => carries_stored
    obtain ⟨htotal, hanswers⟩ := carried_answers hstored hsum hexact
    have hcomponents : ¬(persistPricedRequest quote).operationalComponents = [] := fun hnil =>
      hne (List.map_eq_nil_iff.1 hnil)
    refine ⟨htotal, updateFields_unpriced hcomponents h rfl, ?_⟩
    have hread : Decimal.parse (setOwnerFinalTotal (persistPricedRequest quote) fallback total).systemTotal =
        some (.finite quote.totalPrice.plain.plain) := by
      unfold setOwnerFinalTotal
      rw [systemTotal_persisted]
      exact Decimal.parse_format _
    rw [updateFields_priced (s := setOwnerFinalTotal (persistPricedRequest quote) fallback total) hcomponents h rfl hread,
      Decimal.value_plain, Decimal.value_plain]
    exact hanswers

end

/-! ### Three nights at another price -/

instance (x : Dec) : Decidable (Kept x) := inferInstanceAs (Decidable (_ = _))

/-- A line of a quote. -/
def lineOf (name : String) (quantity : Option ℕ) (value total : Decimal) (deleted : Bool) : PriceComponent :=
  ⟨none, "accommodation", name, name, "", quantity, value, some total, some true, none, some deleted⟩

/-- Three nights of 100 with a discount of 30; a cleaning fee was deleted. -/
def threeNights : PriceQuote where
  totalPrice := ⟨false, 27000, -2⟩
  components := [lineOf "discount" none ⟨true, 3000, -2⟩ ⟨true, 3000, -2⟩ false,
    lineOf "baseRate" (some 3) ⟨false, 1, 2⟩ ⟨false, 3, 2⟩ false,
    lineOf "cleaningFee" (some 1) ⟨false, 50, 0⟩ ⟨false, 50, 0⟩ true]

/-- The owner agreed on 200. -/
theorem finance_fields_add_up_discount : ∃ fields, threeNights.components.mapM fromPriceComponent = .ok fields ∧
    includedTotal fields = 270 ∧ Answers fields 270 200 (createFields threeNights 200 true) := by
  have hvalue : threeNights.totalPrice.value = 270 := by decide +kernel
  have htotal : (⟨false, 200, 0⟩ : Decimal).value = 200 := by decide +kernel
  have hexact : Exact threeNights (⟨false, 200, 0⟩ : Decimal).value := ⟨by decide +kernel, by decide +kernel⟩
  have hmain := (finance_fields_add_up (by decide +kernel) hexact ⟨false, 0, 0⟩).2.1
  rw [hvalue, htotal] at hmain
  obtain ⟨hsum, -, hanswers⟩ := hmain _ rfl
  exact ⟨_, rfl, hsum, hanswers (by norm_num)⟩

/-- A single line of the given number of nights. -/
def flatRate (quantity : ℕ) : PriceQuote :=
  ⟨⟨false, 300, 0⟩, [lineOf "baseRate" (some quantity) ⟨false, 100, 0⟩ ⟨false, 300, 0⟩ false]⟩

/-- A rate beyond 28 digits, and a discount that leaves 1 of it. -/
def wideRate : PriceQuote :=
  ⟨⟨false, 1, 0⟩, [lineOf "baseRate" (some 1) ⟨false, 1, 0⟩ ⟨false, 10 ^ 28 + 1, 0⟩ false,
    lineOf "discount" none ⟨true, 1, 28⟩ ⟨true, 1, 28⟩ false]⟩

/-- A third of 100 is no decimal of 28 digits, the value of no nights is no rate, and a sum of 29 digits is rounded. -/
theorem price_fields_rounded :
    (flatRate 3).includedTotal = 300 ∧ (flatRate 0).includedTotal = 300 ∧ wideRate.includedTotal = 1 ∧
    (createFields (flatRate 3) 100 true).map (·.map fun f => (f.total, decide (f.value * 3 = f.total))) =
      .ok [(100, false)] ∧
    (createFields (flatRate 0) 100 true).map (·.map fun f => (f.total, decide (f.value * 0 = f.total))) =
      .ok [(100, false)] ∧
    (createFields wideRate 2 true).map includedTotal = .ok 0 := by
  decide +kernel

end Apartments.Finance
