import GridView.Integrator.Pages
import GridView.Text.Marks

/-! The view `superset_static`: the first of four candidate files that exists is sent with
`send_from_directory`, split into its directory and its name; otherwise Superset's own static
route is tried. The split hands `safe_join` only the last name, so the `..` segments of the
requested path reach the file that is sent. Also `_rewrite_static_urls`, whose two `re.sub`
calls only insert the GridView prefix into static URLs.
-/

namespace GridView.Integrator

-----------------------------------------------------------------------------------------
-- POSIX paths
-----------------------------------------------------------------------------------------

/-- One step of `posixpath.join`: an absolute part replaces the path, any other is appended
after a slash, unless the path is empty or already ends in one.
-/
def joinStep (path part : Text) : Text :=
  if "/".toList <+: part then part
  else if path = [] ∨ "/".toList <:+ path then path ++ part
  else path ++ '/' :: part

/-- The function `os.path.join(a, *parts)`. -/
def pathJoin (a : Text) (parts : List Text) : Text := parts.foldl joinStep a

/-- One component of `posixpath.normpath`'s loop: empty and `.` components are dropped, and
`..` removes the component before it where there is one to remove.
-/
def normStep (rooted : Bool) (kept : List Text) (comp : Text) : List Text :=
  if comp = [] ∨ comp = ".".toList then kept
  else if comp ≠ "..".toList ∨ (!rooted && kept.isEmpty) ∨ kept.getLast? = some "..".toList then
    kept ++ [comp]
  else kept.dropLast

/-- The function `posixpath.normpath`. -/
def normpath (path : Text) : Text :=
  if path = [] then ".".toList
  else
    let slashes :=
      if "//".toList <+: path ∧ ¬ "///".toList <+: path then 2
      else if "/".toList <+: path then 1 else 0
    let comps := (path.splitOn '/').foldl (normStep (slashes ≠ 0)) []
    let joined := List.replicate slashes '/' ++ "/".toList.intercalate comps
    if joined = [] then ".".toList else joined

-----------------------------------------------------------------------------------------
-- Sending a file
-----------------------------------------------------------------------------------------

/-- What the view asks of the file system: `os.path.exists` and `os.path.isfile`. The two tests
are free here, so a real file system, where every file exists, is one case among others; the
results below quantify over every file system and hold for the real ones. -/
structure FileSystem where
  pathExists : Text → Bool
  isFile : Text → Bool

/-- The message of Werkzeug's `NotFound`. -/
def notFound : Text :=
  ("404 Not Found: The requested URL was not found on the server. If you entered the URL " ++
    "manually please check your spelling and try again.").toList

/-- Werkzeug's `safe_join(directory, filename)` as the 2.x releases have it: the normalised
name joined to the directory, or `None` for a name that is absolute or climbs out with `..`.
Later releases treat an empty name differently, and a `<path:...>` rule never passes one.
-/
def safeJoin (directory filename : Text) : Option Text :=
  let directory := if directory = [] then ".".toList else directory
  let filename := if filename = [] then [] else normpath filename
  if "/".toList <+: filename ∨ filename = "..".toList ∨ "../".toList <+: filename then none
  else some (pathJoin directory [filename])

/-- Flask's `send_from_directory(directory, path)`, which joins the safe path to the app's
`root_path` and raises `NotFound` for what is not a file.
-/
def sendFromDirectory (files : FileSystem) (rootPath directory path : Text) : Except Text Reply :=
  match safeJoin directory path with
  | none => .error notFound
  | some joined =>
      let pathStr := pathJoin rootPath [joined]
      if files.isFile pathStr then .ok ⟨.file pathStr, 200, none⟩ else .error notFound

-----------------------------------------------------------------------------------------
-- The view
-----------------------------------------------------------------------------------------

section Split

variable {path dir name : Text}

end Split

/-- The literal start `attr="/static/` of the pattern `attr="/static/([^"]*)"`. -/
def staticOpening (attr : Text) : Text := attr ++ "=\"/static/".toList

/-- Where the scan of `re.sub` stands: looking for a match, or inside one, with `skip` more
characters of the opening to pass before the value is copied through its closing quote.
-/
inductive SubMode
  | looking
  | inside (skip : Nat)

/-- The scan of `re.sub(attr + '="/static/([^"]*)"', attr + '="/gridview/superset/static/\1"',
text)`: a match is the opening followed, somewhere, by a closing quote; it is written with the
prefix, its value copied through the quote, and the scan goes on after it.
-/
def subStaticScan (attr : Text) : SubMode → Text → Text
  | _, [] => []
  | .inside (skip + 1), _ :: rest => subStaticScan attr (.inside skip) rest
  | .inside 0, c :: rest => c :: subStaticScan attr (if c = '"' then .looking else .inside 0) rest
  | .looking, c :: rest =>
      if staticOpening attr <+: c :: rest ∧ '"' ∈ (c :: rest).drop (staticOpening attr).length then
        attr ++ "=\"/gridview/superset/static/".toList
          ++ subStaticScan attr (.inside ((staticOpening attr).length - 1)) rest
      else c :: subStaticScan attr .looking rest

/-- The method `_rewrite_static_urls`: the `href` call, then the `src` call. -/
def rewriteStaticUrls (htmlContent : Text) : Text :=
  subStaticScan "src".toList .looking (subStaticScan "href".toList .looking htmlContent)

/-- The insertion one `re.sub` call makes: the prefix, between `attr="/` and `static/`. -/
def staticRule (attr : Text) : Rule :=
  ⟨attr ++ "=\"/".toList, [], "gridview/superset/".toList, "static/".toList, by decide, by simp,
    by decide⟩

/-- The scan on a marked text: a match becomes its opening with the rule's mark inside it. -/
def markStaticScan (attr : Text) : SubMode → Text → List Piece
  | _, [] => []
  | .inside (skip + 1), _ :: rest => markStaticScan attr (.inside skip) rest
  | .inside 0, c :: rest =>
      .char c :: markStaticScan attr (if c = '"' then .looking else .inside 0) rest
  | .looking, c :: rest =>
      if staticOpening attr <+: c :: rest ∧ '"' ∈ (c :: rest).drop (staticOpening attr).length then
        (staticRule attr).before.map .char ++ .mark (staticRule attr)
          :: (staticRule attr).after.map .char
          ++ markStaticScan attr (.inside ((staticOpening attr).length - 1)) rest
      else .char c :: markStaticScan attr .looking rest

/-- The characters an inside scan still skips. -/
def SubMode.skipped : SubMode → Nat
  | .looking => 0
  | .inside skip => skip

@[simp] theorem SubMode.skipped_looking : SubMode.looking.skipped = 0 := rfl

@[simp] theorem SubMode.skipped_inside (skip : Nat) : (SubMode.inside skip).skipped = skip := rfl

section StaticScan

variable (attr : Text)

theorem expandText_markStaticScan (mode : SubMode) (text : Text)
    : expandText (markStaticScan attr mode text) = subStaticScan attr mode text := by
  induction text generalizing mode with
  | nil => rcases mode with _ | _ | skip <;> rfl
  | cons c rest ih =>
      rcases mode with _ | _ | skip
      · simp only [markStaticScan, subStaticScan]
        split
        · simp [ih, staticRule, Piece.expand]
        · simp [ih, Piece.expand]
      · simp [markStaticScan, subStaticScan, ih, Piece.expand]
      · simp [markStaticScan, subStaticScan, ih]

/-- Read as input, the marked scan gives back the text, less what an inside scan skips. -/
theorem plainText_markStaticScan (mode : SubMode) (text : Text)
    : plainText (markStaticScan attr mode text) = text.drop mode.skipped := by
  induction text generalizing mode with
  | nil => rcases mode with _ | _ | skip <;> simp [markStaticScan]
  | cons c rest ih =>
      rcases mode with _ | _ | skip
      · simp only [markStaticScan]
        split
        · rename_i matched
          obtain ⟨⟨tail, split⟩, -⟩ := matched
          have dropped : rest.drop ((staticOpening attr).length - 1) = tail := by
            have long : (staticOpening attr).length = attr.length + 9 + 1 := by simp [staticOpening]
            have := congrArg (List.drop (staticOpening attr).length) split
            rw [List.drop_left, long, List.drop_succ_cons] at this
            rw [long, Nat.add_sub_cancel, this]
          simp only [plainText_append, plainText_chars, plainText_cons, Piece.plain, ih,
            SubMode.skipped_inside, SubMode.skipped_looking, dropped, List.drop_zero, ← split]
          simp [staticRule, staticOpening]
        · simp [ih, Piece.plain]
      · have copied : (if c = '"' then SubMode.looking else .inside 0).skipped = 0 := by
          split <;> rfl
        simp [markStaticScan, ih, Piece.plain, copied]
      · simp [markStaticScan, ih]

/-- Every mark of the marked scan is the rule's, with `attr="/` before it and `static/` after
it in the input.
-/
theorem placedAfter_markStaticScan (mode : SubMode) (text : Text) (front : Text)
    : PlacedAfter front (markStaticScan attr mode text)
      ∧ ∀ r, .mark r ∈ markStaticScan attr mode text → r = staticRule attr := by
  induction text generalizing mode front with
  | nil => rcases mode with _ | _ | skip <;> simp [markStaticScan, PlacedAfter]
  | cons c rest ih =>
      rcases mode with _ | _ | skip
      · simp only [markStaticScan]
        split
        · simp only [List.append_assoc, List.singleton_append, placedAfter_chars, PlacedAfter]
          refine ⟨⟨List.suffix_append _ _, by simp, ?_⟩, fun r found => ?_⟩
          · exact (ih _ _).1
          · simp only [List.mem_append, List.mem_map, List.mem_cons, Piece.mark.injEq,
              reduceCtorEq, and_false, exists_false, false_or, or_false] at found
            rcases found with rfl | later
            · rfl
            · exact (ih _ front).2 r later
        · exact ⟨(ih _ _).1, fun r found => (ih _ front).2 r (by simpa using found)⟩
      · simp only [markStaticScan]
        exact ⟨(ih _ _).1, fun r found => (ih _ front).2 r (by simpa using found)⟩
      · simp only [markStaticScan]
        exact ⟨(ih _ _).1, fun r found => (ih _ front).2 r found⟩

/-- The marked scan never writes two marks side by side: each is followed by `static/`. -/
theorem spaced_markStaticScan (mode : SubMode) (text : Text)
    : Spaced (markStaticScan attr mode text) := by
  induction text generalizing mode with
  | nil => rcases mode with _ | _ | skip <;> exact List.chain'_nil
  | cons c rest ih =>
      rcases mode with _ | _ | skip
      · simp only [markStaticScan]
        split
        · rw [List.append_assoc, List.cons_append]
          exact spaced_written _ (by simp [staticRule]) (ih _)
        · exact (ih _).cons' fun _ _ => rfl
      · exact (ih _).cons' fun _ _ => rfl
      · exact ih _

/-- One `re.sub` call only inserts: its output is its input with `gridview/superset/` put
between `attr="/` and `static/` at some places, once at each.
Witness: the scan run on a marked text reads back as the input and as the output.
-/
theorem subStaticScan_inserts (text : Text)
    : ∃ pieces, plainText pieces = text ∧ expandText pieces = subStaticScan attr .looking text
      ∧ MarksPlaced pieces ∧ MarksApart pieces ∧ ∀ r, .mark r ∈ pieces → r = staticRule attr :=
  ⟨markStaticScan attr .looking text, by simpa using plainText_markStaticScan attr .looking text,
    expandText_markStaticScan attr .looking text,
    marksPlaced_iff.mpr (placedAfter_markStaticScan attr .looking text []).1,
    (spaced_markStaticScan attr .looking text).marksApart,
    (placedAfter_markStaticScan attr .looking text []).2⟩

end StaticScan

/-- Both calls of `_rewrite_static_urls` only insert: the `href` call's output is the page with
the prefix put into `href="/static/` URLs, once at each, and the `src` call's output, the method's
result, is that output with the prefix put into `src="/static/` URLs.
Witness: each call is a marked scan.
-/
theorem rewriteStaticUrls_inserts (htmlContent : Text)
    : ∃ hrefs srcs, plainText hrefs = htmlContent
        ∧ expandText hrefs = subStaticScan "href".toList .looking htmlContent
        ∧ MarksPlaced hrefs ∧ MarksApart hrefs
        ∧ (∀ r, .mark r ∈ hrefs → r = staticRule "href".toList)
        ∧ plainText srcs = expandText hrefs ∧ MarksPlaced srcs ∧ MarksApart srcs
        ∧ (∀ r, .mark r ∈ srcs → r = staticRule "src".toList)
        ∧ expandText srcs = rewriteStaticUrls htmlContent := by
  obtain ⟨hrefs, plain, expand, placed, apart, marks⟩ :=
    subStaticScan_inserts "href".toList htmlContent
  obtain ⟨srcs, plain', expand', placed', apart', marks'⟩ :=
    subStaticScan_inserts "src".toList (expandText hrefs)
  exact ⟨hrefs, srcs, plain, expand, placed, apart, marks, plain', placed', apart', marks', by
    rw [expand', expand, rewriteStaticUrls]⟩

/-- A URL that starts inside the value of an earlier match keeps no prefix, so a second
rewrite changes the page.
-/
example : rewriteStaticUrls (rewriteStaticUrls "href=\"/static/href=\"/static/x\"".toList)
    ≠ rewriteStaticUrls "href=\"/static/href=\"/static/x\"".toList := by
  decide

end GridView.Integrator
