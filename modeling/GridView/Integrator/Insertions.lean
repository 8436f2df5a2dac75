import GridView.Integrator.BootstrapUrls
import GridView.Text.Marks

/-! The URL rewrite only inserts. Its output is the body with the GridView prefix placed
right after the `&#34;/` of chosen entries, once at each, and a value that already begins with
the prefix never gets a second one, however often the rewrite runs.
-/

namespace GridView.Integrator

/-- Each rule removes nothing, inserts right after the `&#34;/` ending its `before`, and keeps
context after what it writes.
-/
theorem bootstrapRules_insert
    : ∀ r ∈ bootstrapRules, r.old = [] ∧ "&#34;/".toList <:+ r.before ∧ r.after ≠ [] := by
  decide

/-- The GridView prefix written twice over: after a slash, as the path rules write it, and
as the `application_root` rule writes it.
-/
def doubledPrefixes : List Text :=
  ["/gridview/superset/gridview/superset".toList, "/gridview/supersetgridview/superset".toList]

/-- No rule can write a doubled prefix: around each insertion stand the rule's own
`&#34;/` and the rest of the matched value.
-/
theorem bootstrapRules_single
    : ∀ r ∈ bootstrapRules, ∀ doubled ∈ doubledPrefixes,
        touchFree r.before r.new r.after doubled = true := by
  decide

/-- The rewrite on a marked body: the body with one mark of a rule at each entry the rewrite
prefixes.
-/
theorem rewriteBootstrapUrls_marked (content : Text)
    : ∃ pieces, plainText pieces = content ∧ expandText pieces = rewriteBootstrapUrls content
      ∧ MarksPlaced pieces ∧ MarksApart pieces
      ∧ ∀ r, .mark r ∈ pieces → r ∈ bootstrapRules ∧ r.old = [] := by
  have written : ∀ r ∈ bootstrapRules, r.before ≠ [] ∧ r.after ≠ [] := fun r known =>
    ⟨fun empty => by simpa [empty] using (bootstrapRules_insert r known).2.1.length_le,
      (bootstrapRules_insert r known).2.2⟩
  obtain ⟨pieces, plain, expand, placed, apart, marks⟩ := runRules_marked bootstrapRules
    (fun r _ r' known' touch =>
      not_touches_of_touchFree (bootstrapRules_sparing r' known' _ ‹_›) touch) written content
  exact ⟨pieces, plain, expand.trans (rewriteBootstrapUrls_eq content).symm, placed, apart,
    fun r found => ⟨marks r found, (bootstrapRules_insert r (marks r found)).1⟩⟩

/-- The rewrite is the body with prefixes inserted at entries of the body, at most one at each
place, and a value that already carries the prefix never gets a second one, however often the
rewrite runs.
Witness: the run of the six rules on the marked body follows the rewrite, since no entry can
meet an inserted prefix; a doubled prefix would have to touch an insertion.
-/
theorem rewriteBootstrapUrls_inserts (content : Text)
    : (∃ pieces, plainText pieces = content ∧ expandText pieces = rewriteBootstrapUrls content
        ∧ MarksPlaced pieces ∧ MarksApart pieces
        ∧ ∀ r, .mark r ∈ pieces → r ∈ bootstrapRules ∧ r.old = [])
      ∧ ∀ doubled ∈ doubledPrefixes, ∀ n, ¬ doubled <:+: content
        → ¬ doubled <:+: rewriteBootstrapUrls^[n] content := by
  refine ⟨rewriteBootstrapUrls_marked content, fun doubled known n absent => ?_⟩
  induction n with
  | zero => exact absent
  | succ n ih =>
      rw [Function.iterate_succ_apply', rewriteBootstrapUrls_eq]
      exact not_infix_runRules
        (fun r rule => not_touches_of_touchFree (bootstrapRules_single r rule doubled known)) ih

/-- A single language entry is too short to hold a doubled prefix, and two rewrites do not
make one.
-/
theorem rewriteBootstrapUrls_inserts_lang
    : (∀ doubled ∈ doubledPrefixes, ¬ doubled <:+: "&#34;url&#34;: &#34;/lang/&#34;".toList)
      ∧ ∀ doubled ∈ doubledPrefixes,
          ¬ doubled <:+: rewriteBootstrapUrls^[2] "&#34;url&#34;: &#34;/lang/&#34;".toList :=
  have short : ∀ doubled ∈ doubledPrefixes,
      ¬ doubled <:+: "&#34;url&#34;: &#34;/lang/&#34;".toList := fun doubled known found =>
    absurd found.length_le (by simp only [doubledPrefixes, List.mem_cons, List.mem_singleton,
      List.not_mem_nil, or_false] at known; rcases known with rfl | rfl <;> decide)
  ⟨short, fun doubled known =>
    (rewriteBootstrapUrls_inserts _).2 doubled known 2 (short doubled known)⟩

end GridView.Integrator
