import DarajaWrapper.Middleware.Http
import DarajaWrapper.Schemas.RoundTrip

/-!
# `POST /callback/stk`

Whatever comes in the envelope is acknowledged, and what can be read is queued behind the
response. The Celery task reads the inner object by itself, without the envelope; both find
the same callback.
-/

namespace DarajaWrapper

open Python

/-- `STKCallbackEnvelope.model_validate`: the dictionary `Body`. -/
def STKCallbackEnvelope.modelValidate : Json → Option (List (String × Json))
  | .obj kvs =>
    match kvs.lookup "Body" with
    | some (.obj body) => some body
    | _ => none
  | _ => none

/-- The response with a default `DarajaCallbackAck`. -/
def darajaCallbackAck : JSONResponse where
  statusCode := 200
  content := .obj [("ResultCode", .str "0"), ("ResultDesc", .str "Accepted")]

/-- `stk_push_callback`: the response, and the callback that is processed after it; `none` where
the body is refused before the route is called. -/
def stkPushCallback (intOf : Json → Option ℤ) (body : Json) :
    Option (JSONResponse × Option STKCallbackBody) :=
  (STKCallbackEnvelope.modelValidate body).map fun envelope =>
    (darajaCallbackAck, STKCallbackEnvelope.extract intOf envelope)

def STKCallbackBody.envelope (cb : STKCallbackBody) : Json :=
  .obj [("Body", .obj [("stkCallback", .obj cb.payload)])]

variable {intOf : Json → Option ℤ} {body raw : Json} {envelope : List (String × Json)}
  {cb : STKCallbackBody}

theorem STKCallbackBody.eq_obj_of_modelValidate
    (h : STKCallbackBody.modelValidate intOf raw = some cb) :
    ∃ kvs, raw = .obj kvs ∧ kvs ≠ [] := by
  cases raw with
  | obj kvs =>
    refine ⟨kvs, rfl, ?_⟩
    rintro rfl
    cases h
  | _ => cases h

/-- The test for an empty callback never drops one that could be read. -/
theorem STKCallbackEnvelope.extract_eq_some_iff :
    STKCallbackEnvelope.extract intOf envelope = some cb ↔
      ∃ payload, envelope.lookup "stkCallback" = some (.obj payload) ∧
        STKCallbackBody.modelValidate intOf (.obj payload) = some cb := by
  unfold STKCallbackEnvelope.extract
  rw [Option.bind_eq_some_iff]
  constructor
  · rintro ⟨raw, hraw, hvalid⟩
    split_ifs at hvalid
    obtain ⟨payload, rfl, -⟩ := STKCallbackBody.eq_obj_of_modelValidate hvalid
    exact ⟨payload, hraw, hvalid⟩
  · rintro ⟨payload, hraw, hvalid⟩
    obtain ⟨_, heq, hne⟩ := STKCallbackBody.eq_obj_of_modelValidate hvalid
    cases heq
    have htruthy : (Json.obj payload).truthy = true := by simpa [Json.truthy] using hne
    exact ⟨_, hraw, by rw [if_pos htruthy, hvalid]⟩

theorem STKCallbackEnvelope.modelValidate_eq_some_iff :
    STKCallbackEnvelope.modelValidate body = some envelope ↔
      ∃ members, body = .obj members ∧ members.lookup "Body" = some (.obj envelope) := by
  cases body with
  | obj members =>
    have hmembers : (∃ members', Json.obj members = .obj members' ∧
        members'.lookup "Body" = some (.obj envelope)) ↔
        members.lookup "Body" = some (.obj envelope) :=
      ⟨fun ⟨_, heq, h⟩ => by cases heq; exact h, fun h => ⟨members, rfl, h⟩⟩
    rw [hmembers, STKCallbackEnvelope.modelValidate]
    split
    · rename_i inner hinner
      rw [hinner]
      simp
    · rename_i hother
      exact ⟨nofun, fun h => absurd h (hother envelope)⟩
  | _ => exact ⟨nofun, nofun⟩

/-- A callback of Daraja is acknowledged and queued as it is. Of any body, what is queued is what
the task reads when it is given the inner object. -/
theorem callback_queued (hint : ∀ n : ℤ, intOf (.int n) = some n) :
    (∀ cb : STKCallbackBody,
      stkPushCallback intOf cb.envelope = some (darajaCallbackAck, some cb) ∧
        STKCallbackBody.modelValidate intOf (.obj cb.payload) = some cb) ∧
    ∀ body response queued, stkPushCallback intOf body = some (response, queued) →
      response = darajaCallbackAck ∧ ∀ cb : STKCallbackBody, queued = some cb ↔
        ∃ members envelope payload, body = .obj members ∧
          members.lookup "Body" = some (.obj envelope) ∧
          envelope.lookup "stkCallback" = some (.obj payload) ∧
          STKCallbackBody.modelValidate intOf (.obj payload) = some cb := by
  constructor
  · intro cb
    have hvalid := STKCallbackBody.modelValidate_payload hint cb
    have hqueued : STKCallbackEnvelope.extract intOf [("stkCallback", .obj cb.payload)] =
        some cb :=
      STKCallbackEnvelope.extract_eq_some_iff.mpr ⟨cb.payload, rfl, hvalid⟩
    refine ⟨?_, hvalid⟩
    rw [stkPushCallback, STKCallbackBody.envelope,
      STKCallbackEnvelope.modelValidate_eq_some_iff.mpr ⟨_, rfl, rfl⟩, Option.map_some, hqueued]
  · intro body response queued h
    obtain ⟨envelope, henvelope, heq⟩ := Option.map_eq_some_iff.mp h
    cases heq
    obtain ⟨members, rfl, hbody⟩ := STKCallbackEnvelope.modelValidate_eq_some_iff.mp henvelope
    refine ⟨rfl, fun cb => ?_⟩
    rw [STKCallbackEnvelope.extract_eq_some_iff]
    constructor
    · rintro ⟨payload, hpayload, hvalid⟩
      exact ⟨members, envelope, payload, rfl, hbody, hpayload, hvalid⟩
    · rintro ⟨_, envelope', payload, hmembers, hbody', hpayload, hvalid⟩
      cases hmembers
      cases hbody.symm.trans hbody'
      exact ⟨payload, hpayload, hvalid⟩

def cancelledCallback : STKCallbackBody where
  merchantRequestId := "29115-34620561-1"
  checkoutRequestId := "ws_CO_191220191020363925"
  resultCode := 1032
  resultDesc := "Request cancelled by user"
  callbackMetadata := none

theorem callback_queued_sample :
    stkPushCallback intValue cancelledCallback.envelope =
      some (darajaCallbackAck, some cancelledCallback) :=
  ((callback_queued (fun n => show intValue (.int n) = some n from rfl)).1 cancelledCallback).1

end DarajaWrapper
