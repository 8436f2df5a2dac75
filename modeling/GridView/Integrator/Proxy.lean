import GridView.Integrator.Http
import GridView.Integrator.Insertions

/-! The catch-all view `superset_proxy`: each request becomes one call on Superset at the same
path, and the answer comes back with its status and headers, JSON re-serialised and the
bootstrap URLs of HTML rewritten. Also `superset_login_redirect`, which rewrites any login page.
-/

namespace GridView.Integrator

-----------------------------------------------------------------------------------------
-- The call
-----------------------------------------------------------------------------------------

/-- The `target_path`: the path, with a leading slash added where it has none. -/
def targetPath (path : Text) : Text :=
  if "/".toList <+: path then path else '/' :: path

/-- A result of `request.get_json(silent=True)` kept as `request_data`: `None` stays `None`. -/
def jsonPayload : Json → Option Payload
  | .null => none
  | value => some (.json value)

/-- The `request_data` read for POST, PUT and PATCH, by the request's content type. -/
def requestData (request : Request) : Option Payload :=
  if request.method ∈ [.POST, .PUT, .PATCH] then
    if mentions request.contentType "application/json".toList then jsonPayload request.json
    else if mentions request.contentType "application/x-www-form-urlencoded".toList then
      some (.form request.form)
    else some (.raw request.data)
  else none

/-- The test `isinstance(request_data, dict)`. -/
def isDict : Option Payload → Bool
  | some (.json (.object _)) => true
  | some (.form _) => true
  | _ => false

/-- The test-client call `superset_proxy` makes, by the request's method. -/
def proxyCall (request : Request) (path : Text) : Call :=
  let target := targetPath path
  let data := requestData request
  let query := some request.queryString
  match request.method with
  | .GET => { method := .GET, path := target, queryString := query }
  | .POST =>
      if isDict data then { method := .POST, path := target, data, queryString := query }
      else
        { method := .POST, path := target, data, contentType := request.contentType,
          queryString := query }
  | .PUT =>
      { method := .PUT, path := target, data, contentType := request.contentType,
        queryString := query }
  | .DELETE => { method := .DELETE, path := target, queryString := query }
  | .PATCH =>
      { method := .PATCH, path := target, data, contentType := request.contentType,
        queryString := query }
  | _ => { method := .GET, path := target, queryString := query }

-----------------------------------------------------------------------------------------
-- The reply
-----------------------------------------------------------------------------------------

/-- The body `superset_proxy` returns for Superset's response: `jsonify` of a JSON body that
parses, the rewrite of an HTML body that decodes as UTF-8, and otherwise `response.data`, which
is also what the bare `except` falls back to when `get_data(as_text=True)` raises.
-/
def proxyBody (response : Response) : Body :=
  let contentType := contentTypeOf response
  let rest : Body :=
    if "text/html".toList <+: contentType then
      match decodeUtf8 response.data with
      | .ok content => .text (rewriteBootstrapUrls content)
      | .error _ => .bytes response.data
    else .bytes response.data
  if "application/json".toList <+: contentType then
    match response.json with
    | .ok jsonData => .jsonify jsonData
    | .error _ => rest
  else rest

/-- The reply to Superset's response, with its status and the dict of its headers. -/
def proxyReply (response : Response) : Reply :=
  ⟨proxyBody response, response.statusCode, some (headerDict response.headers)⟩

/-- The view `superset_proxy` on a request for `path` under the GridView prefix. -/
def supersetProxy (supersetApp : Option Client) (request : Request) (path : Text) : Reply :=
  match supersetApp with
  | none => supersetNotAvailable
  | some testClient =>
      match testClient (proxyCall request path) with
      | .ok response => proxyReply response
      | .error e => ⟨.text ("Error proxying to Superset: ".toList ++ e), 500, none⟩

/-- The view `superset_login_redirect`: Superset's login page with the six rewrites, whatever
its content type. A body that is not UTF-8 makes the inner `except` decode it again, which raises
into the outer one.
-/
def supersetLoginRedirect : Option Client → Reply
  | none => supersetNotAvailable
  | some testClient =>
      match testClient { method := .GET, path := "/login/".toList } with
      | .ok response =>
          match decodeUtf8 response.data with
          | .ok content =>
              ⟨.text (rewriteBootstrapUrls content), response.statusCode, some response.headers⟩
          | .error _ => ⟨.text "Superset login error".toList, 500, none⟩
      | .error _ => ⟨.text "Superset login error".toList, 500, none⟩

-----------------------------------------------------------------------------------------
-- What the proxy sends back for an HTML page
-----------------------------------------------------------------------------------------

/-- An HTML answer is not a JSON one: a content type cannot start with both. -/
theorem proxyBody_of_html {response : Response}
    (html : "text/html".toList <+: contentTypeOf response)
    : proxyBody response = match decodeUtf8 response.data with
        | .ok content => .text (rewriteBootstrapUrls content)
        | .error _ => .bytes response.data := by
  have differ : ¬ "application/json".toList <+: contentTypeOf response := fun json =>
    absurd (List.prefix_of_prefix_length_le html json (by decide)) (by decide)
  simp only [proxyBody, if_neg differ, if_pos html]

/-- Whatever HTML page Superset answers a proxied request with, the proxy sends back Superset's
status, the dict of its headers, and Superset's bytes with the GridView prefix put into bootstrap
entries, at most once at each place, and nothing else changed. Bytes that are not UTF-8 come back
as they are.
Witness: decoding undoes encoding, so the text the rewrite works on is Superset's bytes, and the
rewrite only inserts.
-/
theorem supersetProxy_html_inserts (testClient : Client) (request : Request) (path : Text)
    (response : Response) (answered : testClient (proxyCall request path) = .ok response)
    (html : "text/html".toList <+: contentTypeOf response)
    : (supersetProxy (some testClient) request path).status = response.statusCode
      ∧ (supersetProxy (some testClient) request path).headers = some (headerDict response.headers)
      ∧ (((∃ message, decodeUtf8 response.data = .error message)
          ∧ (supersetProxy (some testClient) request path).body.encoded = some response.data)
        ∨ ∃ pieces, encodeUtf8 (plainText pieces) = response.data
          ∧ (supersetProxy (some testClient) request path).body.encoded
            = some (encodeUtf8 (expandText pieces))
          ∧ MarksPlaced pieces ∧ MarksApart pieces
          ∧ ∀ r, .mark r ∈ pieces → r ∈ bootstrapRules ∧ r.old = []) := by
  simp only [supersetProxy, answered, proxyReply, proxyBody_of_html html, true_and]
  cases decoded : decodeUtf8 response.data with
  | error message => exact .inl ⟨⟨message, rfl⟩, rfl⟩
  | ok content =>
      obtain ⟨pieces, plain, expand, placed, apart, marks⟩ := rewriteBootstrapUrls_marked content
      exact .inr ⟨pieces, by rw [plain, encodeUtf8_of_decodeUtf8 decoded],
        by simp only [Body.encoded, expand], placed, apart, marks⟩

/-- A login page as Superset serves it, encoded as UTF-8. -/
def sampleLoginPage : Response :=
  ⟨200, [("Content-Type".toList, "text/html; charset=utf-8".toList)], encodeUtf8 sampleBootstrap,
    .error []⟩

/-- A plain GET of the login page through the proxy. -/
def sampleLoginRequest : Request := ⟨.GET, none, none, [], .null, [], []⟩

/-- The proxied login page comes back with prefixes inserted. -/
theorem supersetProxy_html_inserts_login
    : (fun _ => .ok sampleLoginPage : Client) (proxyCall sampleLoginRequest "login/".toList)
        = .ok sampleLoginPage
      ∧ "text/html".toList <+: contentTypeOf sampleLoginPage
      ∧ (supersetProxy (some fun _ => .ok sampleLoginPage) sampleLoginRequest
          "login/".toList).status = sampleLoginPage.statusCode
      ∧ (supersetProxy (some fun _ => .ok sampleLoginPage) sampleLoginRequest
          "login/".toList).headers = some (headerDict sampleLoginPage.headers)
      ∧ (((∃ message, decodeUtf8 sampleLoginPage.data = .error message)
          ∧ (supersetProxy (some fun _ => .ok sampleLoginPage) sampleLoginRequest
              "login/".toList).body.encoded = some sampleLoginPage.data)
        ∨ ∃ pieces, encodeUtf8 (plainText pieces) = sampleLoginPage.data
          ∧ (supersetProxy (some fun _ => .ok sampleLoginPage) sampleLoginRequest
              "login/".toList).body.encoded = some (encodeUtf8 (expandText pieces))
          ∧ MarksPlaced pieces ∧ MarksApart pieces
          ∧ ∀ r, .mark r ∈ pieces → r ∈ bootstrapRules ∧ r.old = []) :=
  ⟨rfl, by decide, supersetProxy_html_inserts (fun _ => .ok sampleLoginPage) sampleLoginRequest
    "login/".toList sampleLoginPage rfl (by decide)⟩

end GridView.Integrator
