import GridView.Text.Replace

/-! `SupersetRouteMapper`: a dict from Superset routes to GridView routes and a list of excluded
route prefixes, as the mapper's constructor builds them, and the lookups it offers.
-/

namespace GridView.Integrator

-----------------------------------------------------------------------------------------
-- The mapper's data
-----------------------------------------------------------------------------------------

/-- The entries of the `route_mappings` dict literal, in order; `/superset/dashboard/` stands
twice.
-/
def routeMappingEntries : List (Text × Text) :=
  [("/superset/dashboard/".toList, "/gridview/superset/dashboard/".toList),
    ("/superset/chart/".toList, "/gridview/superset/chart/".toList),
    ("/superset/sqllab/".toList, "/gridview/superset/sqllab/".toList),
    ("/superset/explore/".toList, "/gridview/superset/explore/".toList),
    ("/superset/datasets/".toList, "/gridview/superset/datasets/".toList),
    ("/superset/databaseview/".toList, "/gridview/superset/databaseview/".toList),
    ("/superset/api/".toList, "/gridview/superset/api/".toList),
    ("/superset/chart/data".toList, "/gridview/superset/chart/data".toList),
    ("/superset/dashboard/".toList, "/gridview/superset/dashboard/".toList),
    ("/superset/static/".toList, "/gridview/superset/static/".toList),
    ("/superset/assets/".toList, "/gridview/superset/assets/".toList)]

/-- The dict a literal builds: each key once, where it first stands, with its last value. -/
def dictOfEntries (entries : List (Text × Text)) : List (Text × Text) :=
  (entries.map Prod.fst).eraseDups.map fun key => (key, (entries.reverse.lookup key).getD [])

/-- The dict `route_mappings`. -/
def routeMappings : List (Text × Text) := dictOfEntries routeMappingEntries

/-- The list `excluded_routes`. -/
def excludedRoutes : List Text :=
  ["/superset/login/".toList, "/superset/logout/".toList, "/superset/health/".toList]

/-- The method `map_route`: `route_mappings.get(superset_route, superset_route)`. -/
def mapRoute (supersetRoute : Text) : Text :=
  (routeMappings.lookup supersetRoute).getD supersetRoute

/-- The method `should_exclude_route`: whether the route starts with an excluded route. -/
def shouldExcludeRoute (route : Text) : Bool :=
  excludedRoutes.any fun excluded => excluded.isPrefixOf route

/-- The counts of `get_route_statistics`: `len(route_mappings)` and `len(excluded_routes)`. -/
def routeStatistics : Nat × Nat := (routeMappings.length, excludedRoutes.length)

/-- The repeated key is counted once: the literal has eleven entries, the dict ten. -/
example : routeMappingEntries.length = 11 ∧ routeStatistics = (10, 3) := by decide

end GridView.Integrator
