import DarajaWrapper.Models.Uuid
import DarajaWrapper.Python.JsonText
import DarajaWrapper.Repository.AuditLog
import DarajaWrapper.Repository.Sanitise

/-!
# What the checksums of the audit log say

The text of a payload is that of a JSON document, so it gives the sanitised payload back.
Neither a UUID nor an event type has a bar in it; so the text that is hashed tells the
payment, the event and the checksum before it apart, and where digests do not collide the
last checksum of a verified history says what all of its events were.
-/

namespace DarajaWrapper

open Python

inductive AuditEventType where
  | initiated
  | darajaAccepted
  | darajaRejected
  | callbackReceived
  | completed
  | failed
  | cancelled
  | timeoutReceived
  | reconciliationQueried
  | reversed
  | duplicateCallbackIgnored
  deriving DecidableEq

def AuditEventType.value : AuditEventType → String
  | initiated => "INITIATED"
  | darajaAccepted => "DARAJA_ACCEPTED"
  | darajaRejected => "DARAJA_REJECTED"
  | callbackReceived => "CALLBACK_RECEIVED"
  | completed => "COMPLETED"
  | failed => "FAILED"
  | cancelled => "CANCELLED"
  | timeoutReceived => "TIMEOUT_RECEIVED"
  | reconciliationQueried => "RECONCILIATION_QUERIED"
  | reversed => "REVERSED"
  | duplicateCallbackIgnored => "DUPLICATE_CALLBACK_IGNORED"

/-- What a caller gives to `append`; the payload is a value that `json.dumps` writes. -/
structure AuditCall where
  paymentId : UUID
  eventType : AuditEventType
  actor : String
  payload : Option (List (String × Json))
  ipAddress : Option String
  requestId : Option String
  wellFormed : (Json.obj (payload.getD [])).wellFormed = true

namespace AuditCall

def event (call : AuditCall) : AuditEvent :=
  { paymentId := call.paymentId.str
    eventType := call.eventType.value
    actor := call.actor
    payloadJson := payloadJson call.payload
    ipAddress := call.ipAddress
    requestId := call.requestId }

/-- A row that `append` adds for the call. -/
def Wrote (call : AuditCall) (row : PaymentAuditLog) : Prop :=
  ∃ id previous now, row = call.event.entry id call.paymentId previous now

/-- What is kept of the payload: it is sanitised, and the order of members is lost. -/
def kept (call : AuditCall) : Json := (Json.obj (sanitise (call.payload.getD []))).sorted

/-- The same thing happened to the same payment. -/
def SameEvent (call call' : AuditCall) : Prop :=
  call.paymentId = call'.paymentId ∧ call.eventType = call'.eventType ∧ call.kept = call'.kept

end AuditCall

theorem AuditEventType.value_injective : Function.Injective AuditEventType.value := by
  intro a b h
  revert h
  cases a <;> cases b <;> decide

theorem AuditEventType.bar_not_mem_value (event : AuditEventType) :
    '|' ∉ event.value.toList := by
  cases event <;> decide

theorem wellFormed_sanitise {payload : List (String × Json)}
    (h : (Json.obj payload).wellFormed = true) :
    (Json.obj (sanitise payload)).wellFormed = true := by
  rw [Json.wellFormed, wellFormedMembers_iff] at h ⊢
  intro m hm
  obtain ⟨m', hm', rfl⟩ := List.mem_map.mp hm
  have hvalue := h m' hm'
  change (sanitiseValue m'.1 m'.2).wellFormed = true
  unfold sanitiseValue
  split_ifs
  · rfl
  · split
    · rfl
    · exact hvalue

namespace AuditCall

variable {call call' : AuditCall}

/-- The stored text is read back as what is kept of the payload. -/
theorem readJson_payloadJson (call : AuditCall) :
    readJson (payloadJson call.payload).toList = some call.kept := by
  rw [payloadJson, String.toList_ofList]
  exact readJson_dumps (wellFormed_sanitise call.wellFormed)

theorem payloadJson_eq_iff_kept :
    payloadJson call.payload = payloadJson call'.payload ↔ call.kept = call'.kept := by
  rw [payloadJson, payloadJson, ← String.toList_inj, String.toList_ofList, String.toList_ofList]
  exact dumps_eq_iff (wellFormed_sanitise call.wellFormed) (wellFormed_sanitise call'.wellFormed)

end AuditCall

theorem append_bar_inj {xs ys xs' ys' : List Char} (h : '|' ∉ xs) (h' : '|' ∉ xs') :
    xs ++ '|' :: ys = xs' ++ '|' :: ys' ↔ xs = xs' ∧ ys = ys' := by
  rw [PaymentAuditLog.append_bar_eq_iff]
  refine or_iff_left ?_
  rintro (⟨zs, rfl, -⟩ | ⟨zs, rfl, -⟩)
  · exact h' (List.mem_append_right _ List.mem_cons_self)
  · exact h (List.mem_append_right _ List.mem_cons_self)

namespace AuditCall

open PaymentAuditLog

variable {call call' : AuditCall} {calls calls' : List AuditCall} {row row' : PaymentAuditLog}
  {rows rows' : List PaymentAuditLog} {previous previous' : Option String}

theorem checksumData_toList (paymentId eventType payloadJson : String) :
    (checksumData paymentId eventType payloadJson previous).toList =
      paymentId.toList ++ '|' :: (eventType.toList ++ '|' ::
        (payloadJson.toList ++ '|' :: (previous.getD "").toList)) := by
  simp [checksumData]

theorem Wrote.expectedData_eq (h : call.Wrote row) (previous : Option String) :
    row.expectedData previous = checksumData call.paymentId.str call.eventType.value
      (payloadJson call.payload) previous := by
  obtain ⟨id, before, now, rfl⟩ := h
  rfl

theorem SameEvent.expectedData_eq (h : call.SameEvent call') (hrow : call.Wrote row)
    (hrow' : call'.Wrote row') (previous : Option String) :
    row.expectedData previous = row'.expectedData previous := by
  obtain ⟨hpayment, htype, hkept⟩ := h
  rw [hrow.expectedData_eq, hrow'.expectedData_eq, hpayment, htype,
    payloadJson_eq_iff_kept.mpr hkept]

/-- Rows are hashed from one text exactly when they tell of one event behind one checksum. -/
theorem expectedData_eq_iff (hrow : call.Wrote row) (hrow' : call'.Wrote row')
    (h : IsLink previous) (h' : IsLink previous') :
    row.expectedData previous = row'.expectedData previous' ↔
      call.SameEvent call' ∧ previous = previous' := by
  constructor
  · intro heq
    obtain rfl := eq_of_expectedData_eq h h' heq
    refine ⟨?_, rfl⟩
    rw [hrow.expectedData_eq, hrow'.expectedData_eq, ← String.toList_inj, checksumData_toList,
      checksumData_toList,
      append_bar_inj (UUID.bar_not_mem_str _) (UUID.bar_not_mem_str _),
      append_bar_inj (AuditEventType.bar_not_mem_value _) (AuditEventType.bar_not_mem_value _),
      String.toList_inj, String.toList_inj] at heq
    obtain ⟨hpayment, htype, hrest⟩ := heq
    refine ⟨UUID.str_injective hpayment, AuditEventType.value_injective htype, ?_⟩
    rw [← payloadJson_eq_iff_kept, ← String.toList_inj]
    exact List.append_cancel_right hrest
  · rintro ⟨hsame, rfl⟩
    exact hsame.expectedData_eq hrow hrow' previous

theorem forall₂_of_written {α β : Type*} {W : α → β → Prop} {S : α → α → Prop}
    {R : β → β → Prop} (hstep : ∀ a a' b b', W a b → W a' b' → S a a' → R b b')
    {as as' : List α} {bs bs' : List β} (h : List.Forall₂ W as bs)
    (h' : List.Forall₂ W as' bs') (hsame : List.Forall₂ S as as') : List.Forall₂ R bs bs' := by
  induction hsame generalizing bs bs' with
  | nil =>
    cases h
    cases h'
    exact List.Forall₂.nil
  | cons hhead _ ih =>
    cases h with
    | cons hb hbs =>
      cases h' with
      | cons hb' hbs' => exact List.Forall₂.cons (hstep _ _ _ _ hb hb' hhead) (ih hbs hbs')

/-- Of verified histories with no collision between their texts, the last checksums agree exactly
when the same events happened in the same order. -/
theorem last_checksum_eq_iff (hcalls : List.Forall₂ Wrote calls rows)
    (hcalls' : List.Forall₂ Wrote calls' rows') (h : verifyChain rows = true)
    (h' : verifyChain rows' = true) (hfree : CollisionFree (chainData rows ++ chainData rows')) :
    rows.getLast?.map checksum = rows'.getLast?.map checksum ↔
      List.Forall₂ SameEvent calls calls' := by
  have hlinked := verifyFrom_iff.mp h
  have hlinked' := verifyFrom_iff.mp h'
  constructor
  · intro hlast
    have hrows := hlinked.forall₂_of_getLast?_eq hlinked'
      (R := fun row row' => ∀ call call', Wrote call row → Wrote call' row' →
        SameEvent call call') ?_ hlast
    · refine forall₂_of_written (W := fun row call => Wrote call row) ?_ hcalls.flip
        hcalls'.flip hrows
      intro row row' call call' hcall hcall' hsame
      exact hsame call call' hcall hcall'
    · intro row hrow row' hrow' p hp p' hp' heq
      have hdata : row.expectedData p = row'.expectedData p' :=
        hfree _ (List.mem_append_left _ (mem_chainData hrow hp)) _
          (List.mem_append_right _ (mem_chainData hrow' hp')) heq
      have hlink := isLink_of_mem_links h hp
      have hlink' := isLink_of_mem_links h' hp'
      refine ⟨?_, eq_of_expectedData_eq hlink hlink' hdata⟩
      intro call call' hcall hcall'
      exact ((expectedData_eq_iff hcall hcall' hlink hlink').mp hdata).1
  · intro hsame
    apply hlinked.getLast?_eq_of_forall₂ hlinked'
    refine forall₂_of_written ?_ hcalls hcalls' hsame
    intro call call' row row' hrow hrow' hevent
    funext previous
    rw [expected_eq, expected_eq, hevent.expectedData_eq hrow hrow']

def sampleCall (passwordFirst : Bool) (password : String) : AuditCall :=
  { paymentId := 7
    eventType := .initiated
    actor := "api_user"
    payload := some (if passwordFirst then [("Password", .str password), ("amount", .int 500)]
      else [("amount", .int 500), ("Password", .str password)])
    ipAddress := none
    requestId := none
    wellFormed := by
      cases passwordFirst <;> rfl }

def sampleHistory (call : AuditCall) : List PaymentAuditLog := 
  [call.event.entry 1 call.paymentId none 0]

theorem wrote_sampleHistory (call : AuditCall) :
    List.Forall₂ Wrote [call] (sampleHistory call) :=
  List.Forall₂.cons ⟨1, none, 0, rfl⟩ List.Forall₂.nil

theorem verifyChain_sampleHistory (call : AuditCall) : verifyChain (sampleHistory call) = true := by
  simp only [verifyChain, sampleHistory, verifyFrom, AuditEvent.entry, expected, event,
    Option.getD_some, ne_eq, not_true_eq_false, if_false]

theorem last_checksum_eq_iff_sample :
    List.Forall₂ SameEvent [sampleCall true "a"] [sampleCall false "b"] := by
  have hpayload : payloadJson (sampleCall false "b").payload =
      payloadJson (sampleCall true "a").payload := rfl
  have hhistory : sampleHistory (sampleCall false "b") = sampleHistory (sampleCall true "a") := by
    rw [sampleHistory, event, hpayload]
    rfl
  have hfree : CollisionFree (chainData (sampleHistory (sampleCall true "a"))) :=
    collisionFree_pair (by decide +kernel)
  refine (last_checksum_eq_iff (wrote_sampleHistory _) (wrote_sampleHistory _)
    (verifyChain_sampleHistory _) (verifyChain_sampleHistory _) ?_).mp (by rw [hhistory])
  intro x hx y hy
  rw [hhistory, List.mem_append, or_self] at hx hy
  exact hfree x hx y hy

end AuditCall

end DarajaWrapper
