import DarajaWrapper.Python.Values

/-!
# Requests and middlewares

A middleware sees a request before the application does and decides: it calls
the next application, answers itself, or raises. Header names arrive in lower
case, and of several headers with one name the first counts.
-/

namespace DarajaWrapper

open Python

def startswith (s p : String) : Bool := p.toList.isPrefixOf s.toList

theorem startswith_trans {s p q : String} (hs : startswith s p = true)
    (hp : startswith p q = true) : startswith s q = true := by
  simp only [startswith, List.isPrefixOf_iff_prefix] at *
  exact hp.trans hs

structure Request where
  /-- `request.url.path`. Starlette rebuilds the URL with the Host header, so this may differ from
  the path of the scope, which the router matches. -/
  path : String
  headers : List (String × String)
  /-- `request.client.host`. -/
  client : Option String

def Request.header (request : Request) (name : String) : Option String :=
  request.headers.lookup (String.ofList (name.toList.map Char.toLower))

/-- `xff.split(",")[0].strip()`: the first address of an X-Forwarded-For header. -/
def firstForwarded (xff : String) : String :=
  String.ofList (strip ((xff.toList.splitOn ',').headD []))

/-- What a proxy appends behind a comma is not looked at. -/
theorem firstForwarded_append (client rest : String) :
    firstForwarded (client ++ "," ++ rest) = firstForwarded client := by
  have hsplit : (client ++ "," ++ rest).toList.splitOn ',' =
      client.toList.splitOn ',' ++ rest.toList.splitOn ',' := by
    rw [String.toList_append, String.toList_append, List.append_assoc]
    exact List.splitOn_append_cons_self _ _
  unfold firstForwarded
  rw [hsplit]
  cases hparts : client.toList.splitOn ',' with
  | nil => exact absurd hparts (List.splitOn_ne_nil _ _)
  | cons part parts => rfl

structure JSONResponse where
  statusCode : ℕ
  headers : List (String × String) := []
  content : Json

/-- What a `dispatch` does with a request. -/
inductive Dispatch where
  /-- `return await call_next(request)`. -/
  | callNext
  | respond (response : JSONResponse)
  | raised

end DarajaWrapper
