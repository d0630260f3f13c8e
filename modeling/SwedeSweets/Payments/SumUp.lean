import SwedeSweets.Lib.Percent
import SwedeSweets.Payments.Services

namespace SwedeSweets

open Fallible

/-!
# The SumUp adapter

`SumUpHostedPaymentProvider` speaks to the payment provider over HTTP.  `Http` stands for the
network and for SumUp: it is asked one request and answers it, or fails.

* `SumUpHostedPaymentProvider.getPayment` asks for a checkout and normalizes its state;
* `SumUpHostedPaymentProvider.createPayment` creates a checkout;
* `getDefaultHostedPaymentProvider` builds the adapter of the configured credentials.
-/

/-! ### JSON -/

/-- A value of `json.loads`.  A number is kept as it is written. -/
inductive Json where
  | null
  | bool (b : Bool)
  | number (literal : String)
  | string (s : String)
  | array (items : List Json)
  | object (members : List (String × Json))

namespace Json

/-- `isinstance(value, str)`, on what `dict.get` returned. -/
def string? : Option Json → Option String
  | some (.string s) => some s
  | _ => none

/-- `isinstance(value, str) and value`. -/
def text? (value : Option Json) : Option String := (string? value).filter (· ≠ "")

/-- The value can be looked up in a set. -/
def hashable : Option Json → Bool
  | some (.array _) | some (.object _) => false
  | _ => true

end Json

/-- A JSON object, in the order of its text. -/
abbrev JsonObject := List (String × Json)

/-- `dict.get`: a repeated key has its last value. -/
def JsonObject.get (members : JsonObject) (key : String) : Option Json :=
  members.reverse.lookup key

/-- What `json.loads` makes of some bytes. -/
inductive Loads where
  | value (j : Json)
  | jsonDecodeError
  | unicodeDecodeError
  /-- It raises something else: the text nests too deep, or a number is too long. -/
  | raised

/-! ### HTTP -/

/-- The body of a request that creates a checkout; `hosted_checkout` is always enabled. -/
structure CheckoutPayload where
  checkoutReference : String
  amount : Cents
  currency : Currency
  merchantCode : String
  description : String
  redirectUrl : String
  returnUrl : String
  deriving DecidableEq, Repr

structure HttpRequest where
  method : String
  url : String
  headers : List (String × String)
  payload : Option CheckoutPayload
  deriving DecidableEq, Repr

/-- How `urlopen` ends, and what `json.loads` makes of the body it read. -/
inductive HttpOutcome where
  | body (data : Loads)
  | httpError (code : ℕ)
  | urlError
  /-- It raises something else, such as a timeout while it reads. -/
  | raised

abbrev Http := HttpRequest → HttpOutcome

/-- `quote(_, safe="")` leaves letters, digits and four marks alone. -/
def unreserved : Percent.Alphabet where
  plain b :=
    let n := b.toNat
    (65 ≤ n && n ≤ 90) || (97 ≤ n && n ≤ 122) || (48 ≤ n && n ≤ 57)
      || n = 95 || n = 46 || n = 45 || n = 126
  percent := by decide

/-- `quote(text, safe="")`. -/
def quote (text : String) : String :=
  String.ofList (Percent.encode unreserved text.toByteArray.data.toList)

def sumupApiBaseUrl : String := "https://api.sumup.com"
def sumupCheckoutsPath : String := "/v0.1/checkouts"

/-- The path of one checkout. -/
def checkoutPath (providerPaymentId : String) : String :=
  sumupCheckoutsPath ++ "/" ++ quote providerPaymentId

/-! ### The adapter -/

/-- What the adapter raises. -/
inductive ProviderError where
  | sumUpPaymentError (message : String)
  /-- A `SumUpPaymentError` whose text shows the status. -/
  | unsupportedStatus (status : Option Json)
  | valueError (message : String)
  | unicodeDecodeError
  | typeError
  /-- Something else that HTTP or JSON raised. -/
  | raised

/-- What a hosted payment is requested with. -/
structure HostedPaymentRequest where
  reference : String
  amount : Cents
  currency : Currency
  description : String
  customerReturnUrl : String
  webhookUrl : String
  deriving DecidableEq, Repr

/-- The adapter, with credentials that are not blank. -/
structure SumUpHostedPaymentProvider where
  apiKey : String
  merchantCode : String
  apiKey_ne : apiKey ≠ ""
  merchantCode_ne : merchantCode ≠ ""

namespace SumUpHostedPaymentProvider

/-- `__init__`. -/
def new (apiKey merchantCode : String) : Except ProviderError SumUpHostedPaymentProvider :=
  if hkey : Text.strip apiKey = "" then throw (.valueError "SumUp API key is required")
  else if hcode : Text.strip merchantCode = "" then
    throw (.valueError "SumUp merchant code is required")
  else return ⟨Text.strip apiKey, Text.strip merchantCode, hkey, hcode⟩

/-- The HTTP request of `_request_json`. -/
def request (p : SumUpHostedPaymentProvider) (method path : String)
    (payload : Option CheckoutPayload) : HttpRequest where
  method := method
  url := sumupApiBaseUrl ++ path
  headers := [("Authorization", "Bearer " ++ p.apiKey), ("Accept", "application/json"),
    ("Content-Type", "application/json")]
  payload := payload

/-- The GET of one checkout. -/
def checkoutRequest (p : SumUpHostedPaymentProvider) (providerPaymentId : String) : HttpRequest :=
  p.request "GET" (checkoutPath providerPaymentId) none

/-- `_request_json`. -/
def requestJson (http : Http) (request : HttpRequest) : Except ProviderError JsonObject :=
  match http request with
  | .httpError code => throw (.sumUpPaymentError ("SumUp returned HTTP " ++ toString code))
  | .urlError => throw (.sumUpPaymentError "Could not reach SumUp")
  | .raised => throw .raised
  | .body .jsonDecodeError => throw (.sumUpPaymentError "SumUp returned invalid JSON")
  | .body .unicodeDecodeError => throw .unicodeDecodeError
  | .body .raised => throw .raised
  | .body (.value (.object data)) => return data
  | .body (.value _) =>
      throw (.sumUpPaymentError "SumUp returned an invalid checkout response")

/-- The state of a checkout, out of SumUp's status for it. -/
def checkoutState (responseId : String) (response : JsonObject) :
    Except ProviderError ExternalPaymentState :=
  let hostedPaymentUrl := Json.text? (response.get "hosted_checkout_url")
  let status := response.get "status"
  if Json.string? status = some "PENDING" then
    return ⟨responseId, .pending, none, hostedPaymentUrl⟩
  -- the status is looked up in a set
  else if Json.hashable status = false then throw .typeError
  else if Json.string? status = some "FAILED" ∨ Json.string? status = some "EXPIRED" then
    return ⟨responseId, .failed, none, hostedPaymentUrl⟩
  else if Json.string? status = some "PAID" then do
    let transactionId ← orRaise (Json.text? (response.get "transaction_id"))
      (.sumUpPaymentError "paid SumUp checkout has no transaction id")
    return ⟨responseId, .succeeded, some transactionId, hostedPaymentUrl⟩
  else throw (.unsupportedStatus status)

/-- Retrieve and normalize the current SumUp checkout state. -/
def getPayment (p : SumUpHostedPaymentProvider) (http : Http) (providerPaymentId : String) :
    Except ProviderError ExternalPaymentState := do
  let providerPaymentId := Text.strip providerPaymentId
  require (providerPaymentId ≠ "") (.valueError "provider payment id is required")
  let response ← requestJson http (p.checkoutRequest providerPaymentId)
  require (Json.string? (response.get "id") = some providerPaymentId)
    (.sumUpPaymentError "SumUp returned an unexpected checkout id")
  checkoutState providerPaymentId response

/-- Create a checkout that is paid on SumUp's own page. -/
def createPayment (p : SumUpHostedPaymentProvider) (http : Http) (request : HostedPaymentRequest) :
    Except ProviderError HostedPaymentSession := do
  let payload : CheckoutPayload :=
    { checkoutReference := request.reference
      amount := request.amount
      currency := request.currency
      merchantCode := p.merchantCode
      description := request.description
      redirectUrl := request.customerReturnUrl
      returnUrl := request.webhookUrl }
  let response ← requestJson http (p.request "POST" sumupCheckoutsPath (some payload))
  let providerPaymentId ← orRaise (Json.text? (response.get "id"))
    (.sumUpPaymentError "SumUp checkout response has no checkout id")
  let redirectUrl ← orRaise (Json.text? (response.get "hosted_checkout_url"))
    (.sumUpPaymentError "SumUp checkout response has no hosted checkout URL")
  return ⟨providerPaymentId, redirectUrl⟩

end SumUpHostedPaymentProvider

/-- The credentials of the settings. -/
structure SumUpSettings where
  apiKey : String
  merchantCode : String
  deriving DecidableEq, Repr

/-- Build the configured hosted payment provider. -/
def getDefaultHostedPaymentProvider (settings : SumUpSettings) :
    Except ProviderError SumUpHostedPaymentProvider :=
  SumUpHostedPaymentProvider.new settings.apiKey settings.merchantCode

end SwedeSweets
