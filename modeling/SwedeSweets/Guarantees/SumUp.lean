import Mathlib.Data.List.Infix
import SwedeSweets.Payments.SumUp

namespace SwedeSweets

open Fallible

/-!
# What the SumUp adapter reports

* `servedId` — the checkout a URL names, for a server that reads its path; `servedId_request`
  says that the adapter's URL names the checkout it asks for, whatever characters the id has;
* `Reports` — what SumUp says in a response, in the terms of the services;
* `Checkouts` — SumUp as a store of checkouts, and the server over it;
* `checkout_state_exact` — a payment state is what SumUp holds of this one checkout.
-/

/-! ### Addresses -/

/-- The id at the end of a URL: one segment, percent-decoded. -/
def servedId (url : String) : Option String :=
  let checkouts := (sumupApiBaseUrl ++ sumupCheckoutsPath ++ "/").toList
  let segment := url.toList.drop checkouts.length
  if checkouts.isPrefixOf url.toList = true ∧ '/' ∉ segment ∧ '?' ∉ segment ∧ '#' ∉ segment then do
    let bytes ← Percent.decode segment
    String.fromUTF8? ⟨bytes.toArray⟩
  else none

theorem toList_quote (id : String) :
    (quote id).toList = Percent.encode unreserved id.toByteArray.data.toList :=
  String.toList_ofList

/-- An id has no character that could end its segment. -/
theorem not_mem_quote {c : Char} (hc : c = '/' ∨ c = '?' ∨ c = '#') (id : String) :
    c ∉ (quote id).toList := by
  rw [toList_quote]
  have hdigit : ∀ n < 16, Percent.hexDigit n ≠ c := by
    rcases hc with rfl | rfl | rfl <;> decide
  have hplain : unreserved.plain c.toUInt8 = false := by
    rcases hc with rfl | rfl | rfl <;> decide
  have hpercent : c ≠ '%' := by
    rcases hc with rfl | rfl | rfl <;> decide
  exact Percent.not_mem_encode hpercent hdigit hplain _

/-- **Address.** The URL of a checkout names it. -/
theorem servedId_request (p : SumUpHostedPaymentProvider) (id : String) :
    servedId (p.checkoutRequest id).url = some id := by
  have hurl : (p.checkoutRequest id).url.toList
      = (sumupApiBaseUrl ++ sumupCheckoutsPath ++ "/").toList ++ (quote id).toList := by
    show (sumupApiBaseUrl ++ (sumupCheckoutsPath ++ "/" ++ quote id)).toList = _
    simp only [String.toList_append, List.append_assoc]
  have hbase : (sumupApiBaseUrl ++ sumupCheckoutsPath ++ "/").toList.isPrefixOf
      (p.checkoutRequest id).url.toList = true := by
    rw [hurl]
    exact List.isPrefixOf_iff_prefix.mpr (List.prefix_append _ _)
  -- what follows the base address is the quoted id
  have hsegment : (p.checkoutRequest id).url.toList.drop
      (sumupApiBaseUrl ++ sumupCheckoutsPath ++ "/").toList.length = (quote id).toList := by
    rw [hurl, List.drop_left]
  unfold servedId
  simp only [hsegment]
  rw [if_pos ⟨hbase, not_mem_quote (by simp) id, not_mem_quote (by simp) id,
    not_mem_quote (by simp) id⟩, toList_quote, Percent.decode_encode]
  have hvalid : (⟨id.toByteArray.data.toList.toArray⟩ : ByteArray).IsValidUTF8 := id.isValidUTF8
  exact dif_pos hvalid

/-! ### Answers -/

/-- What SumUp says in a response on a checkout, in the terms of the services. -/
inductive Reports (id : String) (response : JsonObject) : ExternalPaymentState → Prop where
  | pending : Json.string? (response.get "status") = some "PENDING" →
      Reports id response ⟨id, .pending, none, Json.text? (response.get "hosted_checkout_url")⟩
  | failed (status : String) : Json.string? (response.get "status") = some status →
      status = "FAILED" ∨ status = "EXPIRED" →
      Reports id response ⟨id, .failed, none, Json.text? (response.get "hosted_checkout_url")⟩
  | succeeded (transactionId : String) : Json.string? (response.get "status") = some "PAID" →
      Json.text? (response.get "transaction_id") = some transactionId →
      Reports id response
        ⟨id, .succeeded, some transactionId, Json.text? (response.get "hosted_checkout_url")⟩

namespace SumUpHostedPaymentProvider

variable {p : SumUpHostedPaymentProvider} {http : Http} {id : String} {response : JsonObject}
  {external : ExternalPaymentState}

theorem hashable_of_string {value : Option Json} {s : String} (h : Json.string? value = some s) :
    Json.hashable value = true := by
  unfold Json.string? at h
  split at h
  · rfl
  · cases h

/-- The adapter returns a state exactly where the answer reports it. -/
theorem checkoutState_eq_ok : checkoutState id response = .ok external ↔
    Reports id response external := by
  constructor
  · intro h
    unfold checkoutState at h
    simp only at h
    -- PENDING, the unsupported, FAILED and EXPIRED, PAID, in the order of the code
    split at h
    · rename_i hpending
      rw [pure_eq_ok] at h
      exact h ▸ .pending hpending
    split at h
    · cases h
    split at h
    · rename_i hfailed
      rw [pure_eq_ok] at h
      rcases hfailed with hfailed | hexpired
      · exact h ▸ .failed "FAILED" hfailed (Or.inl rfl)
      · exact h ▸ .failed "EXPIRED" hexpired (Or.inr rfl)
    split at h
    · rename_i hpaid
      simp only [bind_eq_ok, orRaise_eq_ok, pure_eq_ok] at h
      obtain ⟨transactionId, htransaction, rfl⟩ := h
      exact .succeeded transactionId hpaid htransaction
    · cases h
  · intro h
    unfold checkoutState
    cases h with
    | pending hpending => simp only [hpending, if_true, pure_eq_ok]
    | failed status hfailed hstatus =>
      have hhash : Json.hashable (response.get "status") ≠ false := by
        simp [hashable_of_string hfailed]
      rcases hstatus with rfl | rfl <;> simp [hfailed, hhash, pure_eq_ok]
    | succeeded transactionId hpaid htransaction =>
      have hhash : Json.hashable (response.get "status") ≠ false := by
        simp [hashable_of_string hpaid]
      simp [hpaid, hhash, htransaction, orRaise]

theorem requestJson_eq_ok {request : HttpRequest} :
    requestJson http request = .ok response ↔ http request = .body (.value (.object response)) := by
  unfold requestJson
  split <;> simp_all [throw_eq_ok, pure_eq_ok]

theorem requestJson_httpError {request : HttpRequest} {code : ℕ}
    (h : http request = .httpError code) :
    requestJson http request = .error (.sumUpPaymentError ("SumUp returned HTTP " ++ toString code))
    := by
  unfold requestJson
  rw [h]
  rfl

/-- A fetched state comes from the answer about the asked id. -/
theorem getPayment_eq_ok : p.getPayment http id = .ok external ↔
    Text.strip id ≠ "" ∧ ∃ response : JsonObject,
      http (p.checkoutRequest (Text.strip id)) = .body (.value (.object response)) ∧
      Json.string? (response.get "id") = some (Text.strip id) ∧
      Reports (Text.strip id) response external := by
  unfold getPayment
  simp only [bind_eq_ok, require_eq_ok, exists_const, requestJson_eq_ok, checkoutState_eq_ok]

end SumUpHostedPaymentProvider

/-! ### A store of checkouts -/

/-- SumUp's checkouts; each holds its own id. -/
structure Checkouts where
  find : String → Option JsonObject
  own : ∀ id response, find id = some response → Json.string? (response.get "id") = some id

/-- The store of some responses. -/
def Checkouts.ofList (responses : List JsonObject) : Checkouts where
  find id := responses.find? (fun response => Json.string? (response.get "id") = some id)
  own _ _ h := by simpa using List.find?_some h

/-- The server over a store: the checkout at the end of the path, or 404. -/
def Checkouts.serve (c : Checkouts) : Http := fun request =>
  match (servedId request.url).bind c.find with
  | some response => .body (.value (.object response))
  | none => .httpError 404

/-- The service answers the adapter's request from its own checkouts. -/
theorem Checkouts.serve_checkout (c : Checkouts) (p : SumUpHostedPaymentProvider) (id : String) :
    c.serve (p.checkoutRequest id) = (c.find id).elim (.httpError 404)
      (fun response => .body (.value (.object response))) := by
  unfold Checkouts.serve
  rw [servedId_request, Option.bind_some]
  cases c.find id <;> rfl

/-- **The adapter is exact.** Asked for an id, of whatever characters, a server over SumUp's
    checkouts gives the state of the checkout with that id, or 404 when there is none.  And from
    whatever else may answer, a state is only taken if it is an object that holds this id. -/
theorem checkout_state_exact (p : SumUpHostedPaymentProvider) (id : String) :
    (∀ (c : Checkouts) (external : ExternalPaymentState),
      p.getPayment c.serve id = .ok external ↔ Text.strip id ≠ "" ∧
        ∃ response : JsonObject, c.find (Text.strip id) = some response ∧
          Reports (Text.strip id) response external) ∧
    (∀ c : Checkouts, Text.strip id ≠ "" → c.find (Text.strip id) = none →
      p.getPayment c.serve id = .error (.sumUpPaymentError "SumUp returned HTTP 404")) ∧
    (∀ (http : Http) (external : ExternalPaymentState), p.getPayment http id = .ok external →
      ∃ response : JsonObject,
        http (p.checkoutRequest (Text.strip id)) = .body (.value (.object response)) ∧
        Json.string? (response.get "id") = some (Text.strip id) ∧
        Reports (Text.strip id) response external) := by
  refine ⟨fun c external => ?_, fun c hid hnone => ?_, fun http external h => ?_⟩
  · rw [SumUpHostedPaymentProvider.getPayment_eq_ok, c.serve_checkout]
    refine and_congr_right (fun _ => exists_congr (fun response => ?_))
    -- the answer carries its own id, so the adapter's comparison passes
    cases hfind : c.find (Text.strip id) with
    | none => simp
    | some found =>
      simp only [Option.elim_some, HttpOutcome.body.injEq, Loads.value.injEq, Json.object.injEq,
        Option.some.injEq]
      refine and_congr_right (fun hfound => ?_)
      have hown := c.own _ _ hfind
      rw [hfound] at hown
      exact and_iff_right hown
  · have hmissing : c.serve (p.checkoutRequest (Text.strip id)) = .httpError 404 := by
      rw [c.serve_checkout, hnone]
      rfl
    unfold SumUpHostedPaymentProvider.getPayment
    simp only [require, if_pos hid, SumUpHostedPaymentProvider.requestJson_httpError hmissing]
    rfl
  · exact (SumUpHostedPaymentProvider.getPayment_eq_ok.mp h).2

namespace Shop

def provider : SumUpHostedPaymentProvider := ⟨"key", "merchant", by decide, by decide⟩

/-- A checkout that is paid, whose id would end the path of its URL early. -/
def paidCheckout : JsonObject :=
  [("id", .string "ch/1?x=%41#å"), ("status", .string "PAID"), ("transaction_id", .string "tx")]

/-- One that waits, and whose id the path of the other decodes to when it is decoded twice. -/
def pendingCheckout : JsonObject := [("id", .string "ch/1?x=A#å"), ("status", .string "PENDING")]

def checkouts : Checkouts := .ofList [pendingCheckout, paidCheckout]

theorem find_paidCheckout : checkouts.find "ch/1?x=%41#å" = some paidCheckout := by
  simp only [checkouts, Checkouts.ofList]
  rw [List.find?_cons_of_neg (by decide), List.find?_cons_of_pos (by decide)]

end Shop

/-- Asked for the paid checkout, with blanks around its id, the adapter reports this one, and an
    unknown one is an error. -/
theorem checkout_state_exact_reserved :
    Shop.provider.getPayment Shop.checkouts.serve " ch/1?x=%41#å "
        = .ok ⟨"ch/1?x=%41#å", .succeeded, some "tx", none⟩ ∧
      Shop.provider.getPayment Shop.checkouts.serve "ch"
        = .error (.sumUpPaymentError "SumUp returned HTTP 404") := by
  have hstrip : Text.strip " ch/1?x=%41#å " = "ch/1?x=%41#å" := by decide +kernel
  -- the reserved characters are quoted in the request and read back by the service
  have hpaid := checkout_state_exact Shop.provider " ch/1?x=%41#å "
  rw [hstrip] at hpaid
  refine ⟨(hpaid.1 Shop.checkouts _).mpr ⟨by decide, Shop.paidCheckout, Shop.find_paidCheckout, ?_⟩, ?_⟩
  · exact .succeeded "tx" rfl rfl
  · have hunknown : Text.strip "ch" = "ch" := by decide +kernel
    refine (checkout_state_exact Shop.provider "ch").2.1 Shop.checkouts ?_ ?_
    · rw [hunknown]
      decide
    · rw [hunknown]
      rfl

end SwedeSweets
