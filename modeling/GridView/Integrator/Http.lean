import GridView.Text.Utf8

/-! What the integrator's views see of Flask and of the embedded Superset: the request a view
reads, the calls it makes on Superset's test client, the responses that come back and the tuple
a view returns. Superset itself is a parameter: a client answers each call or raises.
-/

namespace GridView.Integrator

-----------------------------------------------------------------------------------------
-- Requests
-----------------------------------------------------------------------------------------

/-- The methods that can reach a view: those its route lists, and HEAD, which the router adds
wherever GET is listed.
-/
inductive Method
  | GET | POST | PUT | DELETE | PATCH | OPTIONS | HEAD
  deriving DecidableEq, Repr

/-- A value `get_json` returns: JSON, with `null` standing for Python's `None`. A number is a
Python `int`, or a `float` given by its IEEE 754 binary64 bits: the views read a number's type
and its truth value.
-/
inductive Json
  | null
  | bool (b : Bool)
  | int (n : Int)
  | float (bits : UInt64)
  | string (s : Text)
  | array (items : List Json)
  | object (fields : List (Text × Json))

/-- A request as the views read it. -/
structure Request where
  method : Method
  /-- The `Content-Type` header: `request.content_type`, and `request.headers.get` of it. -/
  contentType : Option Text
  /-- The result of `request.headers.get('Authorization')`. -/
  authorization : Option Text
  queryString : Text
  /-- The result of `request.get_json(silent=True)`, `null` where it gives `None`. -/
  json : Json
  /-- The dict `dict(request.form)`. -/
  form : List (Text × Text)
  /-- The body `request.get_data()`. -/
  data : Bytes

/-- Python's `if value:` on an optional string: set and not empty. -/
def whenSet : Option Text → Option Text
  | some (c :: rest) => some (c :: rest)
  | _ => none

/-- The test `content_type and kind in content_type`, for a nonempty `kind`. -/
def mentions (contentType : Option Text) (kind : Text) : Bool :=
  match contentType with
  | some value => decide (kind <:+: value)
  | none => false

-----------------------------------------------------------------------------------------
-- Calls on Superset's test client
-----------------------------------------------------------------------------------------

/-- A request body a view hands the test client as `data=`. -/
inductive Payload
  /-- A non-`None` result of `request.get_json(silent=True)`. -/
  | json (value : Json)
  /-- The dict `dict(request.form)`. -/
  | form (fields : List (Text × Text))
  /-- The bytes of `request.get_data()`. -/
  | raw (bytes : Bytes)

/-- An `Authorization` value the API proxy sends: the request's own, or
`f'Bearer {access_token}'` for a token the login returned.
-/
inductive Credential
  | forwarded (value : Text)
  | bearer (token : Json)

/-- The `headers` dict a view passes: at most a content type and an authorization. -/
structure CallHeaders where
  contentType : Option Text := none
  authorization : Option Credential := none

/-- One call on the test client: its method, its path and the keyword arguments it names,
`none` where the call leaves one out.
-/
structure Call where
  method : Method
  path : Text
  data : Option Payload := none
  json : Option Json := none
  contentType : Option Text := none
  queryString : Option Text := none
  headers : Option CallHeaders := none

/-- A response of the test client. -/
structure Response where
  statusCode : Nat
  /-- The Werkzeug headers, in order, duplicates kept. -/
  headers : List (Text × Text)
  /-- The body, `response.data`. -/
  data : Bytes
  /-- What `response.get_json()` returns, or the message of what it raises. -/
  json : Except Text Json

/-- The embedded Superset app's test client: each call is answered, or raises with the message
`str(e)`.
-/
abbrev Client := Call → Except Text Response

/-- Werkzeug compares header names in lower case. -/
def lowerText (text : Text) : Text := text.map Char.toLower

/-- Werkzeug's `headers.get(key)` and `headers[key]`: the first value whose name is `key` in any
case.
-/
def headersGet (headers : List (Text × Text)) (key : Text) : Option Text :=
  (headers.find? fun entry => lowerText entry.1 == lowerText key).map Prod.snd

/-- The dict `dict(response.headers)`: each name once, where it first stands, with the value
`response.headers[name]`.
-/
def headerDict (headers : List (Text × Text)) : List (Text × Text) :=
  (headers.map Prod.fst).eraseDups.map fun key => (key, (headersGet headers key).getD [])

/-- The test `response_headers.get('Content-Type', '')` of the proxies. -/
def contentTypeOf (response : Response) : Text :=
  ((headerDict response.headers).lookup "Content-Type".toList).getD []

-----------------------------------------------------------------------------------------
-- What a view returns
-----------------------------------------------------------------------------------------

/-- The first item of a view's return value. -/
inductive Body
  /-- A string, which Flask sends encoded as UTF-8. -/
  | text (s : Text)
  /-- A bytes value, such as the body `response.data` of a Superset response. -/
  | bytes (data : Bytes)
  /-- The response `jsonify(value)`. -/
  | jsonify (value : Json)
  /-- A Python value given to Flask as it is: a dict literal, or what `get_json()` gave. -/
  | value (value : Json)
  /-- The response `send_file(path)`. -/
  | file (path : Text)

/-- The bytes Flask sends for a string or a bytes body. -/
def Body.encoded : Body → Option Bytes
  | .text s => some (encodeUtf8 s)
  | .bytes data => some data
  | _ => none

/-- A view's return value: a body, a status (200 when the view returns a body alone) and the
headers it names.
-/
structure Reply where
  body : Body
  status : Nat := 200
  headers : Option (List (Text × Text)) := none

/-- The answer of the views that need Superset when the integrator has no Superset app. -/
def supersetNotAvailable : Reply := ⟨.text "Superset not available".toList, 503, none⟩

end GridView.Integrator
