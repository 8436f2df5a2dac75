import GridView.Integrator.Http
import Mathlib.Order.Lattice

/-! The URL rules of the integrator's blueprint `superset`, as `register_routes` has Flask add
them to the app, and Werkzeug's dispatch of a request to the first rule that matches it. Two of
the blueprint's views sit behind an earlier rule with the same rule string and methods, so no
request reaches them: `superset_login_redirect` behind `superset_login` on `/login/`, and
`superset_static` behind the static rule Flask adds for the blueprint's `static_folder`.
-/

namespace GridView.Integrator

-----------------------------------------------------------------------------------------
-- Registration
-----------------------------------------------------------------------------------------

/-- A rule of the app's URL map: its rule string, its endpoint and the methods it accepts. -/
structure UrlRule where
  rule : Text
  endpoint : Text
  methods : List Method
  deriving DecidableEq, Repr

/-- The methods a rule accepts: those the route lists, OPTIONS, which Flask's `add_url_rule`
adds where the list lacks it, and HEAD, which Werkzeug's `Rule` adds wherever GET is listed. -/
def routeMethods (listed : List Method) : List Method :=
  let withOptions := if .OPTIONS ∈ listed then listed else listed ++ [.OPTIONS]
  if .GET ∈ withOptions ∧ .HEAD ∉ withOptions then withOptions ++ [.HEAD] else withOptions

/-- `BlueprintSetupState.add_url_rule`'s rule string: the URL prefix without its trailing slashes,
a slash, and the rule without its leading slashes; the prefix alone for an empty rule. -/
def prefixedRule (urlPrefix rule : Text) : Text :=
  if rule = [] then urlPrefix
  else (urlPrefix.reverse.dropWhile (· = '/')).reverse ++ '/' :: rule.dropWhile (· = '/')

/-- A route a blueprint records: rule string, view name and the methods the decorator lists
(`route` lists GET when it is given none). -/
abbrev Route := String × String × List Method

/-- The routes `_register_superset_routes` records, in the order its decorators run: of two
stacked decorators the lower one runs first. -/
def supersetRoutes : List Route :=
  [("/", "superset_home", [.GET]),
   ("/dashboard/", "superset_dashboards", [.GET]),
   ("/dashboard/list/", "superset_dashboard_list", [.GET]),
   ("/chart/", "superset_charts", [.GET]),
   ("/chart/add", "superset_chart_add", [.GET]),
   ("/sqllab/", "superset_sqllab", [.GET]),
   ("/dataset/list/", "superset_dataset_list", [.GET]),
   ("/login/", "superset_login", [.GET]),
   ("/debug", "superset_debug", [.GET]),
   ("/<path:path>", "superset_proxy", [.GET, .POST, .PUT, .DELETE, .PATCH, .OPTIONS]),
   ("/login/", "superset_login_redirect", [.GET]),
   ("/api/<path:api_path>/", "superset_api_proxy", [.GET, .POST, .PUT, .DELETE, .PATCH]),
   ("/api/<path:api_path>", "superset_api_proxy", [.GET, .POST, .PUT, .DELETE, .PATCH]),
   ("/static/<path:filename>", "superset_static", [.GET])]

/-- The rules `Blueprint.register` adds to the app, in order: the rule of `send_static_file` when
the blueprint has a static folder, then the recorded routes. Each rule string is put under the
URL prefix and each endpoint is named after the blueprint. -/
def registerBlueprint (name urlPrefix : String) (hasStaticFolder : Bool) (routes : List Route)
    : List UrlRule :=
  let add := fun (route : Route) =>
    ({ rule := prefixedRule urlPrefix.toList route.1.toList
       endpoint := (name ++ "." ++ route.2.1).toList
       methods := routeMethods route.2.2 } : UrlRule)
  (if hasStaticFolder then [add ("/static/<path:filename>", "static", [.GET])] else [])
    ++ routes.map add

/-- The rules of `register_routes`' blueprint: name `superset`, prefix `/gridview/superset` and
static folder `static`. -/
def supersetBlueprintRules : List UrlRule :=
  registerBlueprint "superset" "/gridview/superset" true supersetRoutes

-----------------------------------------------------------------------------------------
-- Dispatch
-----------------------------------------------------------------------------------------

/-- The rule `MapAdapter.match` of Werkzeug 2.0 and 2.1 picks for a request: the first, in the
map's rules stably sorted by `match_compare_key`, whose pattern matches the path and which
accepts the method. The key and the patterns are parameters; both depend on the rule string
only. Werkzeug 2.2 and later match with a state machine whose states keep the rules of one
rule string in the order they were added, and so pick the same rule among those.
-/
def dispatch {κ : Type} [LinearOrder κ] (compareKey : Text → κ) (accepts : Text → Text → Bool)
    (rules : List UrlRule) (method : Method) (path : Text) : Option UrlRule :=
  (rules.mergeSort fun a b => compareKey a.rule ≤ compareKey b.rule).find? fun r =>
    accepts r.rule path && r.methods.contains method

/-- A list's first element that passes a test is never one that comes once, after an element
that passes whenever it does. -/
theorem find?_ne_of_pair_sublist {α : Type} [DecidableEq α] {p : α → Bool} {a b : α}
    (follows : p b = true → p a = true)
    : ∀ {l : List α}, List.Sublist [a, b] l → l.count b = 1 → l.find? p ≠ some b
  | [], order, _, _ => nomatch order
  | x :: l, order, once, found => by
    have differ : a ≠ b := by
      rintro rfl
      have twice := order.count_le a
      simp only [List.count_cons_self, List.count_singleton_self] at twice
      omega
    rw [List.find?_cons] at found
    cases order with
    | cons _ order =>
        have inside : b ∈ l := order.subset (by simp)
        have other : x ≠ b := by
          rintro rfl
          simp only [List.count_cons_self] at once
          have present := List.count_pos_iff.mpr inside
          omega
        split at found
        · exact other (Option.some.inj found)
        · rw [List.count_cons_of_ne (Ne.symm other)] at once
          exact find?_ne_of_pair_sublist follows order once found
    | cons₂ _ order =>
        split at found
        · exact differ (Option.some.inj found)
        · rename_i missed
          exact Bool.false_ne_true (missed.symm.trans (follows (List.find?_some found)))

/-- Dispatch never picks a rule that comes once in the map, after a rule with the same rule
string that accepts every method it does. -/
theorem dispatch_ne_shadowed {κ : Type} [LinearOrder κ] (compareKey : Text → κ)
    (accepts : Text → Text → Bool) (rules : List UrlRule) (method : Method) (path : Text)
    (shadowing shadowed : UrlRule) (order : List.Sublist [shadowing, shadowed] rules)
    (once : rules.count shadowed = 1) (same : shadowing.rule = shadowed.rule)
    (covers : ∀ m ∈ shadowed.methods, m ∈ shadowing.methods)
    : dispatch compareKey accepts rules method path ≠ some shadowed := by
  refine find?_ne_of_pair_sublist ?_ (List.pair_sublist_mergeSort ?_ ?_ ?_ order) ?_
  · simp only [Bool.and_eq_true, List.elem_eq_mem, decide_eq_true_eq, same]
    exact fun ⟨matched, accepted⟩ => ⟨matched, covers method accepted⟩
  · simp only [decide_eq_true_eq]
    exact fun _ _ _ => le_trans
  · simp [le_total]
  · simp [same]
  · rwa [(List.mergeSort_perm rules _).count_eq]

-----------------------------------------------------------------------------------------
-- The blueprint's unreachable views
-----------------------------------------------------------------------------------------

/-- The blueprint's rules for `superset_login_redirect` and `superset_static` come once, in the
blueprint's endpoint namespace, each after a rule with its rule string and its methods:
`superset_login`'s and the blueprint's static rule. -/
theorem supersetBlueprintRules_shadowed
    : ∀ shadowed ∈ supersetBlueprintRules,
      shadowed.endpoint = "superset.superset_login_redirect".toList
        ∨ shadowed.endpoint = "superset.superset_static".toList
      → supersetBlueprintRules.count shadowed = 1
        ∧ ∃ shadowing ∈ supersetBlueprintRules, List.Sublist [shadowing, shadowed] supersetBlueprintRules
          ∧ shadowing.rule = shadowed.rule ∧ ∀ m ∈ shadowed.methods, m ∈ shadowing.methods := by
  decide

/-- Whatever other rules the app's URL map holds, before or after the blueprint's, so long as
their endpoints lie outside the blueprint's namespace `superset.`, no request is dispatched to
`superset_login_redirect` or to `superset_static`, for any method and path.
Witness: a map of the blueprint's rules alone.
-/
theorem dispatch_skips_shadowed {κ : Type} [LinearOrder κ] (compareKey : Text → κ)
    (accepts : Text → Text → Bool) (earlier later : List UrlRule)
    (foreign : ∀ r ∈ earlier ++ later, ¬ "superset.".toList <+: r.endpoint)
    (method : Method) (path : Text)
    : (dispatch compareKey accepts (earlier ++ supersetBlueprintRules ++ later) method path).map
        UrlRule.endpoint
      ∉ [some "superset.superset_login_redirect".toList, some "superset.superset_static".toList] := by
  cases found : dispatch compareKey accepts (earlier ++ supersetBlueprintRules ++ later) method path with
  | none => simp
  | some r =>
      intro named
      simp only [Option.map_some', List.mem_cons, Option.some.injEq, List.mem_singleton,
        List.not_mem_nil, or_false] at named
      have inNamespace : "superset.".toList <+: r.endpoint := by
        rcases named with named | named <;> rw [named] <;> decide
      have member : r ∈ earlier ++ supersetBlueprintRules ++ later :=
        (List.mergeSort_perm _ _).subset (List.mem_of_find?_eq_some found)
      have outside : ∀ l : List UrlRule, (∀ q ∈ l, ¬ "superset.".toList <+: q.endpoint) → l.count r = 0 :=
        fun l apart => List.count_eq_zero.mpr fun mem => apart r mem inNamespace
      have own : r ∈ supersetBlueprintRules := by
        simp only [List.mem_append] at member foreign
        rcases member with (early | own) | late
        · exact absurd inNamespace (foreign r (.inl early))
        · exact own
        · exact absurd inNamespace (foreign r (.inr late))
      obtain ⟨once, shadowing, -, order, same, covers⟩ := supersetBlueprintRules_shadowed r own named
      refine dispatch_ne_shadowed compareKey accepts _ method path shadowing r
        (order.trans ((List.sublist_append_right earlier _).trans (List.sublist_append_left _ later)))
        ?_ same covers found
      simp only [List.count_append, once,
        outside earlier fun q mem => foreign q (List.mem_append_left later mem),
        outside later fun q mem => foreign q (List.mem_append_right earlier mem)]

/-- The blueprint's rules alone, under any sort key and matcher: a GET of `/gridview/superset/login/`
never reaches `superset_login_redirect`. -/
theorem dispatch_skips_shadowed_login
    : (∀ r ∈ ([] : List UrlRule) ++ [], ¬ "superset.".toList <+: r.endpoint)
      ∧ (dispatch (fun _ => (0 : Nat)) (· == ·) ([] ++ supersetBlueprintRules ++ []) .GET
          "/gridview/superset/login/".toList).map UrlRule.endpoint
        ∉ [some "superset.superset_login_redirect".toList, some "superset.superset_static".toList] :=
  ⟨by simp, dispatch_skips_shadowed (fun _ => (0 : Nat)) (· == ·) [] [] (by simp) .GET
    "/gridview/superset/login/".toList⟩

end GridView.Integrator
