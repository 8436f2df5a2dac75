import GridView.Integrator.Http

/-! The page views under the GridView prefix: the home page and its fallbacks, the dashboards
and charts views that try three Superset pages in turn, each call in its own `try`, and the views
that pass one Superset page through as it is, whatever its status.
-/

namespace GridView.Integrator

-----------------------------------------------------------------------------------------
-- Pages of Superset and pages of the views
-----------------------------------------------------------------------------------------

/-- A plain `test_client().get(path)`. -/
def getCall (path : Text) : Call := { method := .GET, path }

/-- A Superset response returned as it is: `response.data, response.status_code,
response.headers`.
-/
def passThrough (response : Response) : Reply :=
  ⟨.bytes response.data, response.statusCode, some response.headers⟩

/-- Python's `str.title()` on ASCII text: a letter after a letter is lower-cased, any other
letter upper-cased.
-/
def titleFrom : Bool → Text → Text
  | _, [] => []
  | afterLetter, c :: rest =>
      (if c.isAlpha then (if afterLetter then c.toLower else c.toUpper) else c)
        :: titleFrom c.isAlpha rest

/-- The placeholder page `_render_superset_page(page_type)`. -/
def renderSupersetPage (pageType : Text) : Reply :=
  ⟨.text ("
            <html>
            <head>
                <title>GridView - Superset ".toList ++ titleFrom false pageType ++ "</title>
            </head>
            <body>
                <h1>GridView Analytics Platform</h1>
                <h2>Superset ".toList ++ titleFrom false pageType ++ "</h2>
                <p>This is where Superset ".toList ++ pageType ++ " functionality will be embedded.</p>
                <p><a href=\"/\">Back to GridView</a></p>
            </body>
            </html>
            ".toList), 200, none⟩

/-- The error page of the pass-through views, titled by the page that failed. -/
def errorPage (title e : Text) : Reply :=
  ⟨.text ("
                    <html>
                    <head><title>GridView - Superset Error</title></head>
                    <body>
                        <h1>GridView Analytics Platform</h1>
                        <h2>Superset ".toList ++ title ++ " Error</h2>
                        <p>Error: ".toList ++ e ++ "</p>
                        <p><a href=\"/gridview/superset/\">← Back to Superset</a></p>
                    </body>
                    </html>
                    ".toList), 200, none⟩

/-- The page the dashboards and charts views fall back to: a redirect to Superset's root. -/
def redirectToSuperset : Reply :=
  ⟨.text "
                        <html>
                        <head>
                            <title>GridView - Superset</title>
                            <meta http-equiv=\"refresh\" content=\"0; url=/gridview/superset/\">
                        </head>
                        <body>
                            <p>Redirecting to Superset...</p>
                            <p><a href=\"/gridview/superset/\">Click here if not redirected</a></p>
                        </body>
                        </html>
                        ".toList, 200, none⟩

-----------------------------------------------------------------------------------------
-- The home page
-----------------------------------------------------------------------------------------

/-- The last resort of `superset_home`, naming the status of Superset's root page. -/
def welcomeNotAccessible (status : Nat) : Reply :=
  ⟨.text ("Superset welcome page not accessible. Status: ".toList ++ (toString status).toList),
    503, none⟩

/-- The second half of `superset_home`: Superset's root page, or the page it redirects to. -/
def homeFallback (testClient : Client) : Except Text Reply := do
  let response ← testClient (getCall "/".toList)
  if response.statusCode = 200 then pure (passThrough response)
  else if response.statusCode = 302 then
    let location := (headersGet response.headers "Location".toList).getD []
    if location ≠ [] then
      let redirectResponse ← testClient (getCall location)
      if redirectResponse.statusCode = 200 then pure (passThrough redirectResponse)
      else pure (welcomeNotAccessible response.statusCode)
    else pure (welcomeNotAccessible response.statusCode)
  else pure (welcomeNotAccessible response.statusCode)

/-- The body of `superset_home`'s `try`: the welcome page, the login page when the welcome page
redirects, and then the fallback.
-/
def homePage (testClient : Client) : Except Text Reply := do
  let response ← testClient (getCall "/superset/welcome/".toList)
  if response.statusCode = 200 then pure (passThrough response)
  else if response.statusCode = 302 then
    let loginResponse ← testClient (getCall "/login/".toList)
    if loginResponse.statusCode = 200 then pure (passThrough loginResponse)
    else homeFallback testClient
  else homeFallback testClient

/-- The view `superset_home`. -/
def supersetHome : Option Client → Reply
  | none => supersetNotAvailable
  | some testClient =>
      match homePage testClient with
      | .ok reply => reply
      | .error e => ⟨.text ("Superset error: ".toList ++ e), 500, none⟩

-----------------------------------------------------------------------------------------
-- Views that try pages in turn
-----------------------------------------------------------------------------------------

/-- The first of the pages Superset answers with 200, each tried in its own `try`, so a page
whose call raises is passed over.
-/
def firstServed (testClient : Client) : List Text → Option Response
  | [] => none
  | path :: rest =>
      match testClient (getCall path) with
      | .ok response => if response.statusCode = 200 then some response else firstServed testClient rest
      | .error _ => firstServed testClient rest

/-- The views that try Superset's pages in turn and fall back to the redirect page. -/
def supersetTried (pages : List Text) (unavailable : Reply) : Option Client → Reply
  | none => unavailable
  | some testClient =>
      match firstServed testClient pages with
      | some response => passThrough response
      | none => redirectToSuperset

/-- The view `superset_dashboards`. -/
def supersetDashboards : Option Client → Reply :=
  supersetTried ["/dashboard/list/".toList, "/dashboard/".toList, "/dashboard/new".toList]
    (renderSupersetPage "dashboards".toList)

/-- The view `superset_charts`. -/
def supersetCharts : Option Client → Reply :=
  supersetTried ["/chart/list/".toList, "/chart/".toList, "/chart/add".toList]
    (renderSupersetPage "charts".toList)

-----------------------------------------------------------------------------------------
-- Views that pass one page through
-----------------------------------------------------------------------------------------

/-- The views that return Superset's answer for one path as it is, whatever its status. -/
def supersetPage (path : Text) (failed : Text → Reply) (unavailable : Reply)
    : Option Client → Reply
  | none => unavailable
  | some testClient =>
      match testClient (getCall path) with
      | .ok response => passThrough response
      | .error e => failed e

/-- The view `superset_dashboard_list`. -/
def supersetDashboardList : Option Client → Reply :=
  supersetPage "/dashboard/list/".toList (errorPage "Dashboard List".toList) supersetNotAvailable

/-- The view `superset_chart_add`. -/
def supersetChartAdd : Option Client → Reply :=
  supersetPage "/chart/add".toList (errorPage "Add Chart".toList) supersetNotAvailable

/-- The view `superset_sqllab`, which shows the placeholder page when Superset fails. -/
def supersetSqllab : Option Client → Reply :=
  supersetPage "/sqllab/".toList (fun _ => renderSupersetPage "sqllab".toList)
    (renderSupersetPage "sqllab".toList)

/-- The view `superset_dataset_list`. -/
def supersetDatasetList : Option Client → Reply :=
  supersetPage "/dataset/list/".toList (errorPage "Dataset List".toList) supersetNotAvailable

/-- The view `superset_login`. -/
def supersetLogin : Option Client → Reply :=
  supersetPage "/login/".toList (fun _ => ⟨.text "Superset login error".toList, 500, none⟩)
    supersetNotAvailable

end GridView.Integrator
