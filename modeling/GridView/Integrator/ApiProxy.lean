import GridView.Integrator.Proxy

/-! The view `superset_api_proxy`, routed for `/api/<path>` with and without a trailing slash:
one call on Superset at the path with its trailing slash, carrying the request's headers, or a
JWT from Superset's login when a GET asks for a CSRF token.
-/

namespace GridView.Integrator

-----------------------------------------------------------------------------------------
-- The view
-----------------------------------------------------------------------------------------

/-- The `target_path`: `/api/` and the path, with a trailing slash added where it has none. -/
def apiTargetPath (apiPath : Text) : Text :=
  if "/".toList <:+ apiPath then "/api/".toList ++ apiPath
  else "/api/".toList ++ apiPath ++ "/".toList

/-- The `headers` dict copied from the request: its content type and its authorization, each
where it is set.
-/
def apiHeaders (request : Request) : CallHeaders :=
  { contentType := whenSet request.contentType,
    authorization := (whenSet request.authorization).map .forwarded }

/-- The JWT login call, `test_client.post('/api/v1/security/login', json=..., headers=...)`. -/
def loginCall : Call :=
  { method := .POST, path := "/api/v1/security/login".toList,
    json := some (.object [("username".toList, .string "admin".toList),
      ("password".toList, .string "admin".toList), ("provider".toList, .string "db".toList)]),
    headers := some { contentType := some "application/json".toList } }

/-- Whether a JSON value is the string `access_token`, as `==` compares it with one. -/
def isAccessTokenKey : Json → Bool
  | .string s => s == "access_token".toList
  | _ => false

/-- What `login_data and 'access_token' in login_data` and then `login_data['access_token']`
give: the token, nothing, or the message of the `TypeError` Python raises. A float is false
when it is `0.0` or `-0.0`, that is when every bit but the sign bit is clear.
-/
def accessToken : Json → Except Text (Option Json)
  | .null => .ok none
  | .bool b => if b then .error "argument of type 'bool' is not iterable".toList else .ok none
  | .int n => if n = 0 then .ok none else .error "argument of type 'int' is not iterable".toList
  | .float bits =>
      if bits <<< 1 = 0 then .ok none
      else .error "argument of type 'float' is not iterable".toList
  | .string s =>
      if s = [] then .ok none
      else if "access_token".toList <:+: s then
        .error "string indices must be integers, not 'str'".toList
      else .ok none
  | .array items =>
      if items.isEmpty then .ok none
      else if items.any isAccessTokenKey then
        .error "list indices must be integers or slices, not str".toList
      else .ok none
  | .object fields =>
      if fields.isEmpty then .ok none else .ok (fields.reverse.lookup "access_token".toList)

/-- What `access_token[:20]`, in the print after a token is found, raises: a string or a list
slices, and any other value raises CPython 3.11's `TypeError`.
-/
def sliceToken : Json → Except Text Unit
  | .string _ => .ok ()
  | .array _ => .ok ()
  | .null => .error "'NoneType' object is not subscriptable".toList
  | .bool _ => .error "'bool' object is not subscriptable".toList
  | .int _ => .error "'int' object is not subscriptable".toList
  | .float _ => .error "'float' object is not subscriptable".toList
  | .object _ => .error "unhashable type: 'slice'".toList

/-- The headers after the CSRF-token step: a GET whose path names `csrf_token` logs in first,
and a token the login returns replaces the authorization, once the print has sliced it. A failed
login's print decodes its body with `get_data(as_text=True)`, which raises on bytes that are not
UTF-8.
-/
def apiAuthorization (testClient : Client) (request : Request) (apiPath : Text)
    (headers : CallHeaders) : Except Text CallHeaders :=
  if "csrf_token".toList <:+: apiPath ∧ request.method = .GET then do
    let loginResponse ← testClient loginCall
    if loginResponse.statusCode = 200 then
      let loginData ← loginResponse.json
      let token ← accessToken loginData
      match token with
      | some token => do
          sliceToken token
          pure { headers with authorization := some (.bearer token) }
      | none => pure headers
    else do
      let _ ← decodeUtf8 loginResponse.data
      pure headers
  else pure headers

/-- The test-client call `superset_api_proxy` makes, by the request's method. -/
def apiCall (request : Request) (target : Text) (headers : CallHeaders) : Call :=
  let query := some request.queryString
  match request.method with
  | .GET => { method := .GET, path := target, queryString := query, headers }
  | .POST =>
      { method := .POST, path := target, data := some (.raw request.data),
        contentType := request.contentType, queryString := query, headers }
  | .PUT =>
      { method := .PUT, path := target, data := some (.raw request.data),
        contentType := request.contentType, headers }
  | .DELETE => { method := .DELETE, path := target, headers }
  | _ => { method := .GET, path := target, queryString := query, headers }

/-- The error body `{"error": message}`. -/
def apiError (message : Text) : Body := .value (.object [("error".toList, .string message)])

/-- The reply to Superset's answer: a JSON body as the value `get_json()` gives, any other body
as it is, with Superset's status and headers; what the view raises becomes a 500.
-/
def apiAnswer : Except Text Response → Reply
  | .ok response =>
      let responseHeaders := some (headerDict response.headers)
      if "application/json".toList <+: contentTypeOf response then
        match response.json with
        | .ok value => ⟨.value value, response.statusCode, responseHeaders⟩
        | .error _ => ⟨.bytes response.data, response.statusCode, responseHeaders⟩
      else ⟨.bytes response.data, response.statusCode, responseHeaders⟩
  | .error e => ⟨apiError ("API proxy error: ".toList ++ e), 500, none⟩

/-- The view `superset_api_proxy` on a request for `/api/` and `apiPath`. -/
def supersetApiProxy (supersetApp : Option Client) (request : Request) (apiPath : Text) : Reply :=
  match supersetApp with
  | none => ⟨apiError "Superset not available".toList, 503, none⟩
  | some testClient =>
      match apiAuthorization testClient request apiPath (apiHeaders request) with
      | .ok headers => apiAnswer (testClient (apiCall request (apiTargetPath apiPath) headers))
      | .error e => apiAnswer (.error e)

-----------------------------------------------------------------------------------------
-- The two routes
-----------------------------------------------------------------------------------------

end GridView.Integrator
