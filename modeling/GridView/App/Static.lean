import GridView.Integrator.Static

/-! The main app's static route, `gridview_static`: Flask's `send_from_directory` on GridView's
static folder. Werkzeug's `safe_join` normalises the whole requested name and refuses one that
climbs out of the folder, so every file sent lies under it.
-/

namespace GridView.App

open GridView.Integrator

-----------------------------------------------------------------------------------------
-- The view
-----------------------------------------------------------------------------------------

/-- The view `gridview_static`: `send_from_directory(static_dir, filename)`, with the app's
`root_path`; the `NotFound` it raises becomes Flask's 404 page.
-/
def gridviewStatic (files : FileSystem) (rootPath staticDir filename : Text)
    : Except Text Reply :=
  sendFromDirectory files rootPath staticDir filename

-----------------------------------------------------------------------------------------
-- Walking along a path
-----------------------------------------------------------------------------------------

/-- Whether a walk along path components, `depth` names below where it started, climbs above
its start: a name is one step down, `..` one step up, and empty and `.` components stay.
-/
def climbsFrom : Nat → List Text → Bool
  | _, [] => false
  | depth, comp :: rest =>
      if comp = [] ∨ comp = ".".toList then climbsFrom depth rest
      else if comp = "..".toList then depth == 0 || climbsFrom (depth - 1) rest
      else climbsFrom (depth + 1) rest

/-- A component `normpath` keeps as a name: not empty, not `.` or `..`, and without a slash. -/
def ProperName (name : Text) : Prop :=
  name ≠ [] ∧ name ≠ ".".toList ∧ name ≠ "..".toList ∧ '/' ∉ name

-----------------------------------------------------------------------------------------
-- The components `split('/')` gives
-----------------------------------------------------------------------------------------

/-- No piece of `splitOnP p` holds a character that `p` splits at. -/
theorem unsplit_of_mem_splitOnP {p : Char → Bool} {xs c : Text} (mem : c ∈ xs.splitOnP p)
    : ∀ a ∈ c, p a = false := by
  induction xs generalizing c with
  | nil =>
      rw [List.splitOnP_nil, List.mem_singleton] at mem
      simp [mem]
  | cons x xs ih =>
      rw [List.splitOnP_cons] at mem
      split at mem
      · rcases List.mem_cons.mp mem with rfl | later
        · simp
        · exact ih later
      · obtain ⟨first, rest, split⟩ := List.exists_cons_of_ne_nil (List.splitOnP_ne_nil p xs)
        rw [split, List.modifyHead_cons] at mem
        rcases List.mem_cons.mp mem with rfl | later
        · exact List.forall_mem_cons.mpr
            ⟨by simpa using ‹¬ p x = true›, ih (split ▸ List.mem_cons_self _ _)⟩
        · exact ih (split ▸ List.mem_cons_of_mem _ later)

/-- No component of `path.split('/')` holds a slash. -/
theorem unslashed_of_mem_splitOn {path comp : Text} (mem : comp ∈ path.splitOn '/')
    : '/' ∉ comp :=
  fun slash => by simpa using unsplit_of_mem_splitOnP mem '/' slash

-----------------------------------------------------------------------------------------
-- The loop of `normpath` on a relative path
-----------------------------------------------------------------------------------------

section Relative

variable {k : Nat} {names : List Text}

/-- One turn of the loop on a relative path, when what it has kept is `k` times `..` and then
names: `..` takes back the last name, or is kept where there is none.
-/
theorem normStep_relative (comp : Text) (proper : ∀ name ∈ names, ProperName name)
    : normStep false (List.replicate k "..".toList ++ names) comp
      = if comp = [] ∨ comp = ".".toList then List.replicate k "..".toList ++ names
        else if comp = "..".toList then
          if names = [] then List.replicate (k + 1) "..".toList
          else List.replicate k "..".toList ++ names.dropLast
        else List.replicate k "..".toList ++ (names ++ [comp]) := by
  by_cases skipped : comp = [] ∨ comp = ".".toList
  · simp only [normStep, if_pos skipped]
  by_cases up : comp = "..".toList
  · subst up
    rcases names.eq_nil_or_concat with rfl | ⟨front, last, rfl⟩
    · cases k <;> simp [normStep, List.replicate_succ']
    · have named : last ≠ ['.', '.'] := (proper last (by simp)).2.2.1
      simp [normStep, named, List.dropLast_append_of_ne_nil]
  · rw [normStep, if_neg skipped, if_neg skipped, if_pos (Or.inl up), if_neg up,
      List.append_assoc]

/-- The loop on a relative path keeps `k` times `..` and then names, and keeps a `..` exactly
when the walk along the components has climbed above its start.
Witness: each turn keeps that shape, and the names kept are the walk's depth.
-/
theorem foldl_normStep_relative (comps : List Text) (bare : ∀ comp ∈ comps, '/' ∉ comp)
    (proper : ∀ name ∈ names, ProperName name)
    : ∃ k' names', comps.foldl (normStep false) (List.replicate k "..".toList ++ names)
        = List.replicate k' "..".toList ++ names'
      ∧ (∀ name ∈ names', ProperName name)
      ∧ (0 < k' ↔ 0 < k ∨ climbsFrom names.length comps = true) := by
  induction comps generalizing k names with
  | nil => exact ⟨k, names, rfl, proper, by simp [climbsFrom]⟩
  | cons comp comps ih =>
      have later := fun c mem => bare c (List.mem_cons_of_mem comp mem)
      rw [List.foldl_cons, normStep_relative comp proper]
      by_cases skipped : comp = [] ∨ comp = ".".toList
      · obtain ⟨k', names', run, proper', climbs⟩ := ih later proper
        refine ⟨k', names', by rwa [if_pos skipped], proper', ?_⟩
        rw [climbs, climbsFrom, if_pos skipped]
      rw [if_neg skipped]
      by_cases up : comp = "..".toList
      · rw [if_pos up]
        rcases names.eq_nil_or_concat with rfl | ⟨front, last, rfl⟩
        · obtain ⟨k', names', run, proper', climbs⟩ := @ih (k + 1) [] later (by simp)
          refine ⟨k', names', by rwa [if_pos rfl, ← List.append_nil (List.replicate _ _)], proper',
            ?_⟩
          rw [climbs, climbsFrom, if_neg skipped, if_pos up]
          simp
        · obtain ⟨k', names', run, proper', climbs⟩ :=
            @ih k front later fun name mem => proper name (by simp [mem])
          refine ⟨k', names', ?_, proper', ?_⟩
          · rwa [if_neg (List.concat_ne_nil last front), List.concat_eq_append,
              List.dropLast_concat]
          · rw [climbs, climbsFrom, if_neg skipped, if_pos up]
            simp
      · have named : ProperName comp := ⟨fun empty => skipped (.inl empty),
          fun dot => skipped (.inr dot), up, bare comp (List.mem_cons_self _ _)⟩
        obtain ⟨k', names', run, proper', climbs⟩ :=
          @ih k (names ++ [comp]) later fun name mem => by
            rcases List.mem_append.mp mem with old | new
            · exact proper name old
            · exact (List.mem_singleton.mp new) ▸ named
        refine ⟨k', names', by rwa [if_neg up], proper', ?_⟩
        rw [climbs, climbsFrom, if_neg skipped, if_neg up]
        simp

end Relative

-----------------------------------------------------------------------------------------
-- The normal form of a relative path
-----------------------------------------------------------------------------------------

/-- A path joined from components starts with the first, followed by nothing or a slash. -/
theorem intercalate_cons_eq (first : Text) (rest : List Text)
    : ∃ tail, "/".toList.intercalate (first :: rest) = first ++ tail
      ∧ (tail = [] ∨ ∃ more, tail = '/' :: more) := by
  cases rest with
  | nil => exact ⟨[], by simp [List.intercalate], .inl rfl⟩
  | cons next rest =>
      exact ⟨'/' :: "/".toList.intercalate (next :: rest),
        by simp [List.intercalate, List.intersperse_cons_cons], .inr ⟨_, rfl⟩⟩

/-- `normpath` of a relative path: `k` times `..` and then names, joined by slashes, or `.`
when nothing is kept; it keeps a `..` exactly when the walk along the path climbs out.
-/
theorem normpath_relative {path : Text} (named : path ≠ []) (relative : ¬ "/".toList <+: path)
    : ∃ k names, (∀ name ∈ names, ProperName name)
      ∧ (0 < k ↔ climbsFrom 0 (path.splitOn '/') = true)
      ∧ normpath path = if List.replicate k "..".toList ++ names = [] then ".".toList
          else "/".toList.intercalate (List.replicate k "..".toList ++ names) := by
  obtain ⟨k, names, run, proper, climbs⟩ := @foldl_normStep_relative 0 [] (path.splitOn '/')
    (fun _ => unslashed_of_mem_splitOn) (by simp)
  have undoubled : ¬ "//".toList <+: path := fun doubled =>
    relative (List.IsPrefix.trans ⟨['/'], rfl⟩ doubled)
  refine ⟨k, names, proper, by simpa using climbs, ?_⟩
  rw [List.replicate_zero, List.nil_append] at run
  have filled : ∀ comp ∈ List.replicate k "..".toList ++ names, comp ≠ [] := by
    intro comp mem
    rcases List.mem_append.mp mem with up | name
    · rw [List.eq_of_mem_replicate up]
      decide
    · exact (proper comp name).1
  simp only [normpath, if_neg named, undoubled, relative, false_and, if_false, ne_eq,
    not_true_eq_false, decide_False, run, List.replicate_zero, List.nil_append]
  generalize List.replicate k "..".toList ++ names = kept at filled ⊢
  rcases kept with _ | ⟨first, rest⟩
  · rfl
  · obtain ⟨tail, joined, -⟩ := intercalate_cons_eq first rest
    have nonempty : first ++ tail ≠ [] := by simp [filled first (List.mem_cons_self _ _)]
    rw [joined, if_neg nonempty, if_neg (List.cons_ne_nil _ _)]

/-- A path that starts with a name, followed by nothing or a slash, is neither absolute nor
climbing, as `safe_join` checks them.
-/
theorem unclimbing_of_proper {name tail : Text} (proper : ProperName name)
    (slashed : tail = [] ∨ ∃ more, tail = '/' :: more)
    : ¬ "/".toList <+: name ++ tail ∧ name ++ tail ≠ "..".toList
      ∧ ¬ "../".toList <+: name ++ tail := by
  obtain ⟨filled, undotted, notUp, bare⟩ := proper
  rcases name with _ | ⟨c, _ | ⟨d, _ | ⟨e, name⟩⟩⟩
  · exact absurd rfl filled
  all_goals rcases slashed with rfl | ⟨more, rfl⟩ <;> simp_all [eq_comm (a := '.')]

/-- The normal form of a relative path that does not climb out is neither absolute nor
climbing, and none of its components is `..`.
-/
theorem normpath_calm {path : Text} (named : path ≠ []) (relative : ¬ "/".toList <+: path)
    (calm : climbsFrom 0 (path.splitOn '/') = false)
    : ¬ "/".toList <+: normpath path ∧ normpath path ≠ "..".toList
      ∧ ¬ "../".toList <+: normpath path ∧ "..".toList ∉ (normpath path).splitOn '/' := by
  obtain ⟨k, names, proper, climbs, normal⟩ := normpath_relative named relative
  obtain rfl : k = 0 := Nat.eq_zero_of_not_pos fun up => by simp [climbs.mp up] at calm
  rw [normal, List.replicate_zero, List.nil_append]
  rcases names with _ | ⟨name, rest⟩
  · decide
  obtain ⟨tail, joined, slashed⟩ := intercalate_cons_eq name rest
  have bare : ∀ comp ∈ name :: rest, '/' ∉ comp := fun comp mem => (proper comp mem).2.2.2
  have split : ("/".toList.intercalate (name :: rest)).splitOn '/' = name :: rest :=
    List.splitOn_intercalate _ _ bare (List.cons_ne_nil _ _)
  rw [if_neg (List.cons_ne_nil _ _), split, joined]
  obtain ⟨unrooted, notUp, unclimbing⟩ :=
    unclimbing_of_proper (proper name (List.mem_cons_self _ _)) slashed
  exact ⟨unrooted, notUp, unclimbing, fun up => (proper _ up).2.2.1 rfl⟩

/-- The normal form of a relative path that climbs out is `..` or starts with `../`. -/
theorem normpath_climbing {path : Text} (named : path ≠ []) (relative : ¬ "/".toList <+: path)
    (climbing : climbsFrom 0 (path.splitOn '/') = true)
    : normpath path = "..".toList ∨ "../".toList <+: normpath path := by
  obtain ⟨k, names, -, climbs, normal⟩ := normpath_relative named relative
  obtain ⟨k, rfl⟩ := Nat.exists_eq_succ_of_ne_zero (climbs.mpr climbing).ne'
  obtain ⟨tail, joined, slashed⟩ :=
    intercalate_cons_eq "..".toList (List.replicate k "..".toList ++ names)
  rw [normal, List.replicate_succ, List.cons_append, if_neg (List.cons_ne_nil _ _), joined]
  rcases slashed with rfl | ⟨more, rfl⟩
  · exact .inl (List.append_nil _)
  · exact .inr ⟨more, rfl⟩

/-- The normal form of an absolute path is absolute. -/
theorem normpath_rooted {path : Text} (rooted : "/".toList <+: path)
    : "/".toList <+: normpath path := by
  obtain ⟨rest, rfl⟩ := rooted
  unfold normpath
  split_ifs <;> simp_all

-----------------------------------------------------------------------------------------
-- Werkzeug's check
-----------------------------------------------------------------------------------------

/-- `safe_join` refuses every absolute name. -/
theorem safeJoin_rooted (directory : Text) {filename : Text} (rooted : "/".toList <+: filename)
    : safeJoin directory filename = none := by
  have named : filename ≠ [] := fun empty => by simp [empty] at rooted
  simp only [safeJoin, if_neg named, normpath_rooted rooted, true_or, if_true]

/-- `safe_join` refuses a relative name exactly when the walk along it climbs out of the
directory, and otherwise joins the name's normal form to the directory.
-/
theorem safeJoin_relative (directory : Text) {filename : Text} (named : filename ≠ [])
    (relative : ¬ "/".toList <+: filename)
    : safeJoin directory filename
      = if climbsFrom 0 (filename.splitOn '/') = true then none
        else some (pathJoin (if directory = [] then ".".toList else directory)
          [normpath filename]) := by
  simp only [safeJoin, if_neg named]
  cases climbs : climbsFrom 0 (filename.splitOn '/')
  · obtain ⟨unrooted, notUp, unclimbing, -⟩ := normpath_calm named relative climbs
    simp only [unrooted, notUp, unclimbing, or_self, if_false, Bool.false_eq_true]
  · rcases normpath_climbing named relative climbs with same | prefixed
    · simp only [same, true_or, or_true, if_true]
    · simp only [prefixed, or_true, if_true]

/-- A part that is absolute replaces whatever it is joined to. -/
theorem pathJoin_absolute (path : Text) {part : Text} (absolute : "/".toList <+: part)
    : pathJoin path [part] = part := by
  simp only [pathJoin, List.foldl, joinStep, if_pos absolute]

/-- A part joined under an absolute directory gives an absolute path. -/
theorem rooted_pathJoin {dir : Text} (rooted : "/".toList <+: dir) (part : Text)
    : "/".toList <+: pathJoin dir [part] := by
  simp only [pathJoin, List.foldl, joinStep]
  split_ifs with absolute
  · exact absolute
  all_goals exact rooted.trans (List.prefix_append _ _)

-----------------------------------------------------------------------------------------
-- What the view sends
-----------------------------------------------------------------------------------------

/-- Whatever name is requested, `gridview_static` sends only an existing file under the static
folder: the folder joined with the name's normal form, which is relative and has no `..`
component.
Witness: `safe_join` refuses an absolute normal form and one that climbs out, and the normal
form of a name that does not climb is made of names.
-/
theorem gridviewStatic_contained (files : FileSystem) (rootPath staticDir filename : Text)
    (reply : Reply) (rooted : "/".toList <+: staticDir) (named : filename ≠ [])
    (sent : gridviewStatic files rootPath staticDir filename = .ok reply)
    : reply = ⟨.file (pathJoin staticDir [normpath filename]), 200, none⟩
      ∧ files.isFile (pathJoin staticDir [normpath filename]) = true
      ∧ ¬ "/".toList <+: normpath filename
      ∧ "..".toList ∉ (normpath filename).splitOn '/' := by
  have folder : staticDir ≠ [] := fun empty => by simp [empty] at rooted
  by_cases absolute : "/".toList <+: filename
  · simp [gridviewStatic, sendFromDirectory, safeJoin_rooted staticDir absolute] at sent
  cases climbs : climbsFrom 0 (filename.splitOn '/')
  · obtain ⟨unrooted, -, -, calm⟩ := normpath_calm named absolute climbs
    rw [gridviewStatic, sendFromDirectory, safeJoin_relative staticDir named absolute, climbs]
      at sent
    simp only [Bool.false_eq_true, if_false, if_neg folder,
      pathJoin_absolute rootPath (rooted_pathJoin rooted _)] at sent
    split at sent
    · exact ⟨(Except.ok.inj sent).symm, ‹_›, unrooted, calm⟩
    · cases sent
  · simp [gridviewStatic, sendFromDirectory, safeJoin_relative staticDir named absolute,
      climbs] at sent

/-- A request for `css/../app.css` sends the folder's `app.css`. -/
theorem gridviewStatic_contained_app_css
    : "/".toList <+: "/srv/gridview/static".toList ∧ "css/../app.css".toList ≠ []
      ∧ gridviewStatic ⟨fun _ => true, fun _ => true⟩ "/srv/gridview".toList
          "/srv/gridview/static".toList "css/../app.css".toList
        = .ok ⟨.file "/srv/gridview/static/app.css".toList, 200, none⟩
      ∧ ⟨.file "/srv/gridview/static/app.css".toList, 200, none⟩
          = ({ body := .file (pathJoin "/srv/gridview/static".toList
              [normpath "css/../app.css".toList]) } : Reply)
        ∧ (⟨fun _ => true, fun _ => true⟩ : FileSystem).isFile
            (pathJoin "/srv/gridview/static".toList [normpath "css/../app.css".toList]) = true
        ∧ ¬ "/".toList <+: normpath "css/../app.css".toList
        ∧ "..".toList ∉ (normpath "css/../app.css".toList).splitOn '/' :=
  have sent : gridviewStatic ⟨fun _ => true, fun _ => true⟩ "/srv/gridview".toList
      "/srv/gridview/static".toList "css/../app.css".toList
      = .ok ⟨.file "/srv/gridview/static/app.css".toList, 200, none⟩ := rfl
  ⟨by decide, by decide, sent,
    gridviewStatic_contained _ _ _ _ _ (by decide) (by decide) sent⟩

end GridView.App
