import Apartments.Money
import Apartments.Text

/-!
# What is kept of a webhook (`integrations/hostaway/webhooks.py`)

`sanitize_webhook_payload`: the fields of the allowlist as text, and the source of the deduplication key. SHA-256 is a
parameter. `\d` is read as an ASCII digit; a float comes with the text that `str` gives it and its integer part.
-/

namespace Apartments.Webhooks

inductive Json
  | null
  | bool (value : Bool)
  | int (value : ℤ)
  | float (text : String) (trunc : Option ℤ)
  | str (text : String)
  | arr (items : List Json)
  | obj (fields : List (String × Json))

/-- `payload.get(key)`; of a key that stands twice the last counts. -/
def Json.get (j : Json) (key : String) : Option Json :=
  match j with
  | .obj fields => fields.reverse.lookup key
  | _ => none

def Json.isObject : Json → Bool
  | .obj _ => true
  | _ => false

/-- `value in (None, "")`. -/
def Json.isBlank : Json → Bool
  | .null => true
  | .str text => text == ""
  | _ => false

/-- `str(value)`; the text of a list or of an object starts with a bracket, which no caller accepts. -/
def Json.str? : Json → Option String
  | .null => none
  | .bool value => some (if value then "True" else "False")
  | .int value => some (toString value)
  | .float text _ => some text
  | .str text => some text
  | .arr _ => none
  | .obj _ => none

/-- `_containers`. -/
def containers (payload : Json) : List Json :=
  payload :: ["data", "result", "object", "reservation"].flatMap fun key =>
    match payload.get key with
    | some candidate =>
      if candidate.isObject then
        match candidate.get "reservation" with
        | some nested => if nested.isObject then [candidate, nested] else [candidate]
        | none => [candidate]
      else []
    | none => []

/-- `_first`. -/
def first (cs : List Json) (keys : List String) : Option Json :=
  cs.findSome? fun c => keys.findSome? fun key => (c.get key).filter (!·.isBlank)

/-! ### The fields -/

def isIdentifierChar (c : Char) : Bool :=
  c.isAlphanum || c == '.' || c == '_' || c == ':' || c == '-'

/-- `_safe_identifier`. -/
def safeIdentifier (value : Option Json) : Option String := do
  let text ← (← value).str?
  if text ≠ "" ∧ text.toList.all isIdentifierChar = true then some (String.ofList (text.toList.take 255)) else none

/-- The digits of a number, between which single underscores may stand. -/
def digits : List Char → Option (List Char)
  | [] => some []
  | '_' :: c :: cs => if c.isDigit then digits (c :: cs) else none
  | c :: cs => if c.isDigit then (digits cs).map (c :: ·) else none

def digitsValue (cs : List Char) : ℕ := cs.foldl (fun n c => 10 * n + (c.toNat - '0'.toNat)) 0

/-- The sign of a number and what follows it. -/
def signed : List Char → Bool × List Char
  | '-' :: cs => (true, cs)
  | '+' :: cs => (false, cs)
  | cs => (false, cs)

/-- `int(text)`. -/
def parseInt (text : String) : Option ℤ :=
  let (negative, cs) := signed (Text.strip text).toList
  match cs with
  | [] => none
  | c :: _ =>
    if c.isDigit then (digits cs).map fun ds => if negative then -(digitsValue ds : ℤ) else digitsValue ds else none

/-- `_optional_positive_int`. -/
def optionalPositiveInt (value : Option Json) : Option ℕ := do
  let parsed ←
    match ← value with
    | .int value => some value
    | .float _ trunc => trunc
    | .str text => if text = "" then none else parseInt text
    | _ => none
  if 0 < parsed then some parsed.toNat else none

/-- `str.isprintable` of one character. -/
def isPrintable (c : Char) : Bool :=
  let n := c.toNat
  (decide (32 ≤ n) && decide (n < 127)) ||
    (decide (161 ≤ n) && n != 0xad && !Text.isSpace c && !(decide (0x200b ≤ n) && decide (n ≤ 0x200f)) &&
      !(decide (0x202a ≤ n) && decide (n ≤ 0x202e)) && !(decide (0x2060 ≤ n) && decide (n ≤ 0x206f)) &&
      !(decide (0xe000 ≤ n) && decide (n ≤ 0xf8ff)) && n != 0x61c && n != 0xfeff && decide (n < 0xe0000))

/-- `_safe_text`. -/
def safeText (value : Option Json) (limit : ℕ) : String :=
  match value with
  | some (.str text) => String.ofList (((Text.strip text).toList.filter isPrintable).take limit)
  | _ => ""

/-- The text starts with a date. -/
def startsWithDate (cs : List Char) : Bool :=
  match cs with
  | a :: b :: c :: d :: '-' :: e :: f :: '-' :: g :: h :: _ => [a, b, c, d, e, f, g, h].all Char.isDigit
  | _ => false

/-- `_iso_date_text`. -/
def isoDateText (value : Option Json) : String :=
  let text := (safeText value 32).toList
  if startsWithDate text then String.ofList (text.take 10) else ""

/-- `[0-9:.+-Z]`, whose last three characters are the range from `+` to `Z`. -/
def isTimeChar (c : Char) : Bool := decide ('+'.toNat ≤ c.toNat) && decide (c.toNat ≤ 'Z'.toNat)

/-- `_safe_datetime_text`. -/
def safeDatetimeText (value : Option Json) : String :=
  let text := (safeText value 40).toList
  match text.drop 10 with
  | separator :: c :: cs =>
    if startsWithDate text ∧ (separator = 'T' ∨ separator = ' ') ∧ (c :: cs).all isTimeChar = true then
      String.ofList text
    else ""
  | _ => ""

/-- The value of a decimal text: whether it is negative, its digits and its exponent. -/
def parseDecimal (text : String) : Option (Bool × List Char × ℤ) := do
  let (negative, cs) := signed ((Text.strip text).toList.filter (· != '_'))
  let whole := cs.takeWhile Char.isDigit
  let rest := cs.dropWhile Char.isDigit
  let (fraction, rest) :=
    match rest with
    | '.' :: rest => (rest.takeWhile Char.isDigit, rest.dropWhile Char.isDigit)
    | rest => ([], rest)
  if whole ++ fraction = [] then none
  let exponent ←
    match rest with
    | [] => some 0
    | e :: rest =>
      let (down, ds) := signed rest
      if (e = 'e' ∨ e = 'E') ∧ ds ≠ [] ∧ ds.all Char.isDigit = true then
        some (if down then -(digitsValue ds : ℤ) else digitsValue ds)
      else none
  some (negative, (whole ++ fraction).dropWhile (· == '0'), exponent - fraction.length)

/-- `format(value, "f")`. -/
def formatDecimal : Bool × List Char × ℤ → String
  | (negative, ds, exponent) =>
    let sign := if negative then "-" else ""
    match exponent with
    | .ofNat n => sign ++ String.ofList (if ds = [] then ['0'] else ds ++ List.replicate n '0')
    | .negSucc n =>
      let padded := List.replicate (n + 2 - ds.length) '0' ++ ds
      sign ++ String.ofList (padded.take (padded.length - (n + 1)) ++ '.' :: padded.drop (padded.length - (n + 1)))

/-- `_decimal_text`; the texts of the values that are not finite do not parse. -/
def decimalText (value : Option Json) : String :=
  match (value.bind Json.str?).bind parseDecimal with
  | some (negative, ds, exponent) => if negative ∧ ds ≠ [] then "" else formatDecimal (negative, ds, exponent)
  | none => ""

/-- `_currency`. -/
def currencyText (value : Option Json) : String :=
  let text := Text.upper (safeText value 3)
  if text.length = 3 ∧ text.toList.all Char.isAlpha = true then text else ""

/-- `re.sub(r"[\s_-]+", ".", text)`. -/
def dotted : Bool → List Char → List Char
  | _, [] => []
  | inside, c :: cs =>
    if Text.isSpace c ∨ c = '_' ∨ c = '-' then (if inside then dotted true cs else '.' :: dotted true cs)
    else c :: dotted false cs

/-- `normalize_event_type`. -/
def normalizeEventType (value : Option Json) : String :=
  match value with
  | some (.str text) =>
    let normalized := String.ofList (dotted false (Text.casefold (Text.strip text)).toList)
    if normalized = "new.message.received" then "message.received" else String.ofList (normalized.toList.take 100)
  | _ => ""

/-! ### The canonical text -/

def hexDigit (n : ℕ) : Char := if n < 10 then Char.ofNat (48 + n) else Char.ofNat (87 + n)

def unicodeEscape (n : ℕ) : List Char :=
  ['\\', 'u', hexDigit (n / 4096 % 16), hexDigit (n / 256 % 16), hexDigit (n / 16 % 16), hexDigit (n % 16)]

/-- A character as `json.dumps` writes it; those that are not printable are not in a safe text. -/
def escapeChar (c : Char) : List Char :=
  let n := c.toNat
  if c = '"' ∨ c = '\\' then ['\\', c]
  else if n < 127 then [c]
  else if n < 0x10000 then unicodeEscape n
  else unicodeEscape (0xd800 + (n - 0x10000) / 1024) ++ unicodeEscape (0xdc00 + (n - 0x10000) % 1024)

/-- A value of the sanitized payload. -/
inductive Field
  | text (text : String)
  | id (value : ℕ)
deriving DecidableEq

def Field.dumps : Field → String
  | .text value => "\"" ++ String.ofList (value.toList.flatMap escapeChar) ++ "\""
  | .id value => toString value

/-- `json.dumps(sanitized, sort_keys=True, separators=(",", ":"))`; the fields stand in the order of their keys. -/
def canonical (fields : List (String × Field)) : String :=
  "\x7b" ++ ",".intercalate (fields.map fun f => "\"" ++ f.1 ++ "\":" ++ f.2.dumps) ++ "\x7d"

structure SanitizedWebhook where
  externalEventId : Option String
  eventType : String
  objectId : Option String
  reservationId : Option ℕ
  payload : List (String × Field)
deriving DecidableEq

def textField (key text : String) : List (String × Field) := if text = "" then [] else [(key, .text text)]

def idField (key : String) (value : Option ℕ) : List (String × Field) :=
  match value with
  | some value => [(key, .id value)]
  | none => []

/-- `sanitize_webhook_payload`; `none` stands for both of its errors. -/
def sanitizeWebhookPayload (payload : Json) : Option SanitizedWebhook :=
  if payload.isObject = false then none
  else
    let cs := containers payload
    let eventType := normalizeEventType (first cs ["eventType", "event_type", "event", "type"])
    if eventType = "" then none
    else
      let objectId := safeIdentifier (first cs ["objectId", "object_id"])
      let reservationId := optionalPositiveInt
        (first cs ["hostawayReservationId", "reservationId", "reservation_id", "objectId"])
      some
        { externalEventId := safeIdentifier (first cs ["eventId", "event_id", "webhookEventId"])
          eventType := eventType
          objectId := objectId
          reservationId := reservationId
          payload :=
            textField "arrival_date" (isoDateText (first cs ["arrivalDate", "checkIn"])) ++
            textField "currency" (currencyText (first cs ["currency", "currencyCode"])) ++
            textField "departure_date" (isoDateText (first cs ["departureDate", "checkOut"])) ++
            textField "event_type" eventType ++
            idField "listing_map_id" (optionalPositiveInt (first cs ["listingMapId", "listing_map_id"])) ++
            textField "object_id" (objectId.getD "") ++
            textField "payment_status" (safeText (first cs ["paymentStatus", "payment_status"]) 100) ++
            idField "reservation_id" reservationId ++
            textField "status" (safeText (first cs ["status", "reservationStatus"]) 100) ++
            textField "total_price" (decimalText (first cs ["totalPrice", "total_price"])) ++
            textField "updated_at"
              (safeDatetimeText (first cs ["updatedOn", "latestActivityOn", "updatedAt", "timestamp"])) }

/-- What the deduplication key is made from. -/
def SanitizedWebhook.deduplicationSource (s : SanitizedWebhook) : String :=
  match s.externalEventId with
  | some id => "external:" ++ id
  | none => "sanitized:" ++ canonical s.payload

def SanitizedWebhook.deduplicationKey (sha256 : String → String) (s : SanitizedWebhook) : String :=
  sha256 s.deduplicationSource

/-- What of a webhook tells it from another one: its external id or, without one, its canonical text. -/
def SanitizedWebhook.SameSource (s s' : SanitizedWebhook) : Prop :=
  s.externalEventId = s'.externalEventId ∧ (s.externalEventId = none → canonical s.payload = canonical s'.payload)

theorem sameSource_iff {s s' : SanitizedWebhook} : s.SameSource s' ↔ s.deduplicationSource = s'.deduplicationSource := by
  have hne : ∀ x y : String, "external:" ++ x ≠ "sanitized:" ++ y := by
    intro x y h
    have h := congrArg (fun t => t.toList.head?) h
    simp at h
  unfold SanitizedWebhook.SameSource SanitizedWebhook.deduplicationSource
  cases s.externalEventId with
  | none =>
    cases s'.externalEventId with
    | none => simp
    | some id' => simpa using (hne id' (canonical s.payload)).symm
  | some id =>
    cases s'.externalEventId with
    | none => simpa using hne id (canonical s'.payload)
    | some id' => simp

end Apartments.Webhooks
