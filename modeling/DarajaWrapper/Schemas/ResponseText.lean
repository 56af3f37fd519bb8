import DarajaWrapper.Models.Uuid
import DarajaWrapper.Schemas.Stk

/-!
# The text of a response

`model_dump_json` writes the fields in their order, without spaces, and escapes only what
JSON makes it escape; `model_validate_json` takes the last member of a name, ignores the
names that it does not know and fills in the default of `status`. How pydantic reads a
UUID is a parameter.
-/

namespace DarajaWrapper

open Python

namespace STKPushInitiateResponse

def members (response : STKPushInitiateResponse) : List (String × String) :=
  [("payment_id", response.paymentId.str), ("checkout_request_id", response.checkoutRequestId),
    ("merchant_request_id", response.merchantRequestId),
    ("response_code", response.responseCode), ("customer_message", response.customerMessage),
    ("status", response.status)]

def content (response : STKPushInitiateResponse) : Json :=
  .obj (response.members.map fun m => (m.1, .str m.2))

/-- Quotes, backslashes and control characters are escaped; everything else stands for itself. -/
def escape (c : Char) : List Char :=
  if c = '"' then ['\\', '"']
  else if c = '\\' then ['\\', '\\']
  else if c = '\n' then ['\\', 'n']
  else if c = '\r' then ['\\', 'r']
  else if c = '\t' then ['\\', 't']
  else if c = '\x0c' then ['\\', 'f']
  else if c = '\x08' then ['\\', 'b']
  else if c.toNat < 0x20 then escapeUnit c.toNat
  else [c]

def modelDumpJson (response : STKPushInitiateResponse) : String :=
  String.ofList ('\x7b' :: joinWith [] (response.members.map fun m =>
    memberText escape [] (m.1, quoted escape m.2)) ++ ['\x7d'])

def strField (kvs : List (String × Json)) (name : String) : Option String :=
  match kvs.reverse.lookup name with
  | some (.str s) => some s
  | _ => none

def statusField (kvs : List (String × Json)) : Option String :=
  match kvs.reverse.lookup "status" with
  | none => some "pending"
  | some (.str s) => some s
  | some _ => none

/-- `none` where it raises `ValidationError`. -/
def modelValidateJson (uuidOf : String → Option UUID) (text : String) :
    Option STKPushInitiateResponse :=
  match readJson text.toList with
  | some (.obj kvs) => do
    let paymentId ← (strField kvs "payment_id").bind uuidOf
    let checkoutRequestId ← strField kvs "checkout_request_id"
    let merchantRequestId ← strField kvs "merchant_request_id"
    let responseCode ← strField kvs "response_code"
    let customerMessage ← strField kvs "customer_message"
    let status ← statusField kvs
    return { paymentId, checkoutRequestId, merchantRequestId, responseCode, customerMessage,
             status }
  | _ => none

theorem readChar_escape (c : Char) (rest : List Char) :
    readChar (escape c ++ rest) = some (c, rest) := by
  unfold escape
  split_ifs with hquote hback hn hr ht hf hb hcontrol
  · rw [hquote]
    rfl
  · rw [hback]
    rfl
  · rw [hn]
    rfl
  · rw [hr]
    rfl
  · rw [ht]
    rfl
  · rw [hf]
    rfl
  · rw [hb]
    rfl
  · rw [readChar_escapeUnit rest (by omega) (by omega), Char.ofNat_toNat]
  · exact readChar_of_plain rest hback (not_lt.mp hcontrol)

theorem head?_escape (c : Char) : (escape c).head? ≠ some '"' := by
  unfold escape
  split_ifs <;> simp_all [escapeUnit]

theorem readJson_modelDumpJson (response : STKPushInitiateResponse) :
    readJson response.modelDumpJson.toList = some response.content := by
  have hvalues : ∀ m ∈ response.members.map fun m => (m.1, quoted escape m.2, Json.str m.2),
      Reads m.2.1 m.2.2 := by
    intro m hm
    obtain ⟨m', -, rfl⟩ := List.mem_map.mp hm
    exact reads_quoted readChar_escape head?_escape m'.2
  have hgap : ∀ c ∈ ([] : List Char), isJsonSpace c = true := nofun
  have hreads := reads_obj readChar_escape head?_escape hgap hvalues
  rw [List.map_map, List.map_map] at hreads
  have hread := hreads _ [] (Nat.lt_succ_self _) nofun
  rw [List.append_nil] at hread
  rw [modelDumpJson, String.toList_ofList, readJson]
  simp only [Function.comp_def] at hread
  rw [hread]
  rfl

/-- Where a UUID is read back from its text, so is a response. -/
theorem modelValidateJson_modelDumpJson {uuidOf : String → Option UUID}
    (huuid : ∀ u : UUID, uuidOf u.str = some u) (response : STKPushInitiateResponse) :
    modelValidateJson uuidOf response.modelDumpJson = some response := by
  have hid : strField (response.members.map fun m => (m.1, Json.str m.2)) "payment_id" =
      some response.paymentId.str := rfl
  rw [modelValidateJson, readJson_modelDumpJson, content]
  dsimp only
  rw [hid, Option.bind_some, huuid]
  rfl

theorem modelDumpJson_ne_empty (response : STKPushInitiateResponse) :
    response.modelDumpJson ≠ "" := by
  intro h
  have hlist := congrArg String.toList h
  rw [modelDumpJson, String.toList_ofList] at hlist
  cases hlist

end STKPushInitiateResponse
end DarajaWrapper
