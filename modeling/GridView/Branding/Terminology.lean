import GridView.Text.Splice

/-! `BrandingManager.transform_terminology`: three `str.replace` calls, one per entry of the
branding configuration's terminology map, in the map's insertion order.
-/

namespace GridView.Branding

-----------------------------------------------------------------------------------------
-- The branding configuration and the transformation
-----------------------------------------------------------------------------------------

/-- `_load_branding_config()['terminology']`, Superset term to GridView term, in insertion
order. The configuration's other entries feed only the static pages.
-/
def terminology : List (String × String) :=
  [("dashboard", "workspace"), ("chart", "grid_cell"), ("slice", "element")]

/-- `transform_terminology(text)`: each term of the map replaced in turn, over the text left
by the previous replacement.
-/
def transformTerminology (text : Text) : Text :=
  terminology.foldl
    (fun text (supersetTerm, gridviewTerm) => replace supersetTerm.toList gridviewTerm.toList text)
    text

/-- A Superset term swapped whole for a GridView term: nothing around it is kept. -/
def termRule (supersetTerm gridviewTerm : Text) (named : supersetTerm ≠ [])
    (renamed : gridviewTerm ≠ []) : Rule :=
  ⟨[], supersetTerm, gridviewTerm, [], renamed, by simpa using named, by simpa using named⟩

/-- The rule of `dashboard -> workspace`. -/
def dashboardRule : Rule := termRule "dashboard".toList "workspace".toList (by decide) (by decide)

/-- The rule of `chart -> grid_cell`. -/
def chartRule : Rule := termRule "chart".toList "grid_cell".toList (by decide) (by decide)

/-- The rule of `slice -> element`. -/
def sliceRule : Rule := termRule "slice".toList "element".toList (by decide) (by decide)

@[simp] theorem termRule_apply (supersetTerm gridviewTerm : Text) (named renamed) (text : Text)
    : (termRule supersetTerm gridviewTerm named renamed).apply text
      = replace supersetTerm gridviewTerm text := by
  simp [Rule.apply, Rule.source, Rule.target, termRule]

/-- The loop over the map is the three rules' calls in order, by unfolding the fold. -/
theorem transformTerminology_eq (text : Text)
    : transformTerminology text = sliceRule.apply (chartRule.apply (dashboardRule.apply text)) := by
  simp [transformTerminology, terminology, dashboardRule, chartRule, sliceRule]

-----------------------------------------------------------------------------------------
-- Which Superset terms can remain
-----------------------------------------------------------------------------------------

/-- A `slic` just before a replaced `slice` spells `slice` again with the first letter of
`element`, so the result still holds a Superset term and a second call changes it.
-/
theorem transformTerminology_slicslice
    : "slice".toList <:+: transformTerminology "slicslice".toList
      ∧ transformTerminology (transformTerminology "slicslice".toList)
        ≠ transformTerminology "slicslice".toList := by
  decide

/-- The dashboard call removes every `dashboard`, and neither later call writes one back. -/
theorem dashboard_not_infix_transformTerminology (text : Text)
    : ¬ "dashboard".toList <:+: transformTerminology text := by
  have removed := source_not_infix_apply (r := dashboardRule) rfl
    (not_touches_of_touchFree (by decide)) text
  rw [transformTerminology_eq]
  exact not_infix_apply (not_infix_apply removed (not_touches_of_touchFree (by decide)))
    (not_touches_of_touchFree (by decide))

/-- The chart call removes every `chart`, and the slice call writes none back. -/
theorem chart_not_infix_transformTerminology (text : Text)
    : ¬ "chart".toList <:+: transformTerminology text := by
  have removed := source_not_infix_apply (r := chartRule) rfl
    (not_touches_of_touchFree (by decide)) (dashboardRule.apply text)
  rw [transformTerminology_eq]
  exact not_infix_apply removed (not_touches_of_touchFree (by decide))

/-- No `dashboard` and no `chart` is left in any transformed text.
Witness: each rule's call removes its own term, whose occurrences cannot touch the term
written in its place, and no later call can create either term.
-/
theorem transformTerminology_no_dashboard_chart (text : Text)
    : ¬ "dashboard".toList <:+: transformTerminology text
      ∧ ¬ "chart".toList <:+: transformTerminology text :=
  ⟨dashboard_not_infix_transformTerminology text, chart_not_infix_transformTerminology text⟩

-----------------------------------------------------------------------------------------
-- Which `slice` remains
-----------------------------------------------------------------------------------------

/-- The first two calls neither create nor break a `slicslice`: no `dashboard` or `chart`
overlaps one, and no written `workspace` or `grid_cell` helps spell one.
-/
theorem slicslice_infix_iff (text : Text)
    : "slicslice".toList <:+: chartRule.apply (dashboardRule.apply text)
      ↔ "slicslice".toList <:+: text := by
  refine ⟨not_imp_not.mp fun absent => ?_, fun found => ?_⟩
  · exact not_infix_apply (not_infix_apply absent (not_touches_of_touchFree (by decide)))
      (not_touches_of_touchFree (by decide))
  · exact chartRule.infix_apply (by decide) (dashboardRule.infix_apply (by decide) found)

/-- What the slice call's output can start with: a character copied from the front of its
input, where no `slice` starts, or the `e` of the `element` written for a `slice` there.
-/
theorem sliceRule_apply_cons {x : Char} {v t : Text} (leading : x :: v <+: sliceRule.apply t)
    : (∃ rest, t = x :: rest ∧ ¬ sliceRule.source <+: t ∧ v <+: sliceRule.apply rest)
      ∨ x = 'e' ∧ ∃ rest, t = sliceRule.source ++ rest := by
  induction t using replace_induction sliceRule.source_ne_nil with
  | nil => simp at leading
  | hit rest _ =>
      rw [Rule.apply_source_append] at leading
      exact .inr ⟨(List.cons_prefix_cons.mp leading).1, rest, rfl⟩
  | miss c rest miss _ =>
      rw [sliceRule.apply_cons_of_miss miss] at leading
      obtain ⟨rfl, tail⟩ := List.cons_prefix_cons.mp leading
      exact .inl ⟨rest, rfl, miss, tail⟩

/-- A character other than `e` at the front of the slice call's output was copied. -/
theorem sliceRule_apply_copied {x : Char} {v t : Text} (other : x ≠ 'e')
    (leading : x :: v <+: sliceRule.apply t)
    : ∃ rest, t = x :: rest ∧ ¬ sliceRule.source <+: t ∧ v <+: sliceRule.apply rest :=
  (sliceRule_apply_cons leading).resolve_right fun written => other written.1

/-- A `slice` at the front of the slice call's output is a copied `slic` and the `e` of a
written `element`, so the input starts with `slicslice`.
-/
theorem slicslice_prefix_of_slice {t : Text} (leading : "slice".toList <+: sliceRule.apply t)
    : "slicslice".toList <+: t := by
  obtain ⟨t, rfl, miss, leading⟩ := sliceRule_apply_copied (by decide) leading
  obtain ⟨t, rfl, -, leading⟩ := sliceRule_apply_copied (by decide) leading
  obtain ⟨t, rfl, -, leading⟩ := sliceRule_apply_copied (by decide) leading
  obtain ⟨t, rfl, -, leading⟩ := sliceRule_apply_copied (by decide) leading
  rcases sliceRule_apply_cons leading with ⟨rest, rfl, -, -⟩ | ⟨-, rest, rfl⟩
  · exact (miss ⟨rest, rfl⟩).elim
  · exact ⟨rest, rfl⟩

/-- A `slice` in the slice call's output comes from a `slicslice` in its input: none starts
inside a written `element`.
-/
theorem slicslice_infix_of_slice {t : Text} (found : "slice".toList <:+: sliceRule.apply t)
    : "slicslice".toList <:+: t := by
  induction t using replace_induction sliceRule.source_ne_nil with
  | nil => simp at found
  | hit rest ih =>
      rw [Rule.apply_source_append] at found
      exact (ih (infix_of_append_of_not_mem (by decide) found)).trans
        (List.suffix_append _ _).isInfix
  | miss c rest miss ih =>
      rw [sliceRule.apply_cons_of_miss miss] at found
      rcases List.infix_cons_iff.mp found with leading | inner
      · exact (slicslice_prefix_of_slice (by rwa [sliceRule.apply_cons_of_miss miss])).isInfix
      · exact (ih inner).trans (List.suffix_cons c rest).isInfix

/-- The scan copies the `slic` of a leading `slicslice` and writes `element` for its `slice`. -/
theorem sliceRule_apply_slicslice (after : Text)
    : sliceRule.apply ("slicslice".toList ++ after)
      = "slicelement".toList ++ sliceRule.apply after := by
  have spelled
      : "slicslice".toList ++ after = 's' :: 'l' :: 'i' :: 'c' :: (sliceRule.source ++ after) := rfl
  rw [spelled, sliceRule.apply_cons_of_miss, sliceRule.apply_cons_of_miss,
    sliceRule.apply_cons_of_miss, sliceRule.apply_cons_of_miss, Rule.apply_source_append]
  · rfl
  all_goals simp [sliceRule, termRule, Rule.source]

/-- A `slicslice` in the input leaves a `slice` in the slice call's output. -/
theorem slice_of_slicslice {t : Text} (found : "slicslice".toList <:+: t)
    : "slice".toList <:+: sliceRule.apply t := by
  induction t using replace_induction sliceRule.source_ne_nil with
  | nil => exact absurd (List.eq_nil_of_infix_nil found) (by decide)
  | hit rest ih =>
      rw [Rule.apply_source_append]
      rcases List.infix_cons_iff.mp found with leading | inner
      · exact absurd (agree_of_prefix_append (show "slicslice".toList <+: sliceRule.source ++ rest
          from leading)) (by decide)
      · exact (ih (infix_of_append_of_not_mem (by decide) inner)).trans
          (List.suffix_append _ _).isInfix
  | miss c rest miss ih =>
      rcases List.infix_cons_iff.mp found with ⟨after, written⟩ | inner
      · rw [← written, sliceRule_apply_slicslice]
        exact ⟨[], _, rfl⟩
      · rw [sliceRule.apply_cons_of_miss miss]
        exact (ih inner).trans (List.suffix_cons c _).isInfix

/-- `transform_terminology` leaves a `slice` in its output exactly when its input holds
`slicslice`: the `slic` before a replaced `slice` and the `e` of `element` spell one, and no
other `slice` survives or is made.
Witness: `slicslice` passes the first two calls unchanged, and the slice call turns it into
`slicelement`; conversely a `slice` in the output starts at a copied `s`, and only a copied
`slic` followed by a written `element` spells it.
-/
theorem transformTerminology_slice_iff (text : Text)
    : "slice".toList <:+: transformTerminology text ↔ "slicslice".toList <:+: text := by
  rw [transformTerminology_eq, ← slicslice_infix_iff]
  exact ⟨slicslice_infix_of_slice, slice_of_slicslice⟩

/-- A second run on a transformed text passes the first two calls unchanged, since no
`dashboard` or `chart` is left, and only repeats the slice call.
-/
theorem transformTerminology_transformTerminology (text : Text)
    : transformTerminology (transformTerminology text)
      = sliceRule.apply (transformTerminology text) := by
  rw [transformTerminology_eq (transformTerminology text),
    dashboardRule.apply_eq_self (dashboard_not_infix_transformTerminology text),
    chartRule.apply_eq_self (chart_not_infix_transformTerminology text)]

/-- `transform_terminology` is idempotent on a text exactly when the text holds no
`slicslice`.
Witness: a second run only repeats the slice call. On an output without `slice` that call
changes nothing; on one with a `slice` it writes the longer `element`, so the text grows.
-/
theorem transformTerminology_idempotent_iff (text : Text)
    : transformTerminology (transformTerminology text) = transformTerminology text
      ↔ ¬ "slicslice".toList <:+: text := by
  rw [transformTerminology_transformTerminology, transformTerminology_eq, ← slicslice_infix_iff]
  constructor
  · intro same found
    have longer := length_lt_replace sliceRule.target sliceRule.source_ne_nil (by decide)
      (slice_of_slicslice found)
    exact Nat.ne_of_gt longer (congrArg List.length same)
  · exact fun absent =>
      sliceRule.apply_eq_self fun found => absent (slicslice_infix_of_slice found)

end GridView.Branding
