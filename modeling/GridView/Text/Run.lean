import GridView.Text.Splice

/-! A chain of `str.replace` calls, each on the text the previous call returned, as a run of
rules. Invariants of one call become invariants of the chain by induction over the rules.
-/

namespace GridView

/-- Rules applied in order, each to the text the previous one left. -/
def runRules (rules : List Rule) (text : Text) : Text :=
  rules.foldl (fun text r => r.apply text) text

@[simp] theorem runRules_nil (text : Text) : runRules [] text = text := rfl

@[simp] theorem runRules_cons (r : Rule) (rules : List Rule) (text : Text)
    : runRules (r :: rules) text = runRules rules (r.apply text) := rfl

theorem runRules_append (first later : List Rule) (text : Text)
    : runRules (first ++ later) text = runRules later (runRules first text) := by
  simp [runRules, List.foldl_append]

/-- A chain of literal calls is the run of the rules whose sources and targets are the calls'
arguments, by induction over the calls.
-/
theorem foldl_replace_eq_runRules (rules : List Rule) (calls : List (Text × Text))
    (same : rules.map (fun r => (r.source, r.target)) = calls) (text : Text)
    : calls.foldl (fun text call => replace call.1 call.2 text) text = runRules rules text := by
  induction rules generalizing calls text with
  | nil => simp [← same]
  | cons r rules ih =>
      subst same
      exact ih _ rfl (r.apply text)

variable {rules : List Rule}

/-- An invariant kept by every rule's call is kept by the run. -/
theorem runRules_invariant (inv : Text → Prop)
    (keeps : ∀ r ∈ rules, ∀ t, inv t → inv (r.apply t))
    {text : Text} (start : inv text) : inv (runRules rules text) := by
  induction rules generalizing text with
  | nil => exact start
  | cons r rules ih =>
      exact ih (fun r' mem => keeps r' (List.mem_cons_of_mem r mem)) (keeps r (by simp) _ start)

/-- A run creates no occurrence of a pattern that touches nothing its rules write. -/
theorem not_infix_runRules {u text : Text}
    (clear : ∀ r ∈ rules, ¬ Touches r.before r.new r.after u) (absent : ¬ u <:+: text)
    : ¬ u <:+: runRules rules text :=
  runRules_invariant (fun t => ¬ u <:+: t)
    (fun r mem _ missing => not_infix_apply missing (clear r mem)) absent

/-- After a run, no rule's source is left, when each call removes its own source under an
invariant every call keeps, and no rule writes over another rule's source.
Witness: split the run at the rule; its call removes the source, the later ones spare it.
-/
theorem source_not_infix_runRules (inv : Text → Prop)
    (keeps : ∀ r ∈ rules, ∀ t, inv t → inv (r.apply t))
    (removes : ∀ r ∈ rules, ∀ t, inv t → ¬ r.source <:+: r.apply t)
    (spares : ∀ r ∈ rules, ∀ r' ∈ rules, ¬ Touches r.before r.new r.after r'.source)
    {text : Text} (start : inv text) : ∀ r ∈ rules, ¬ r.source <:+: runRules rules text := by
  intro r mem
  obtain ⟨first, later, rfl⟩ := List.append_of_mem mem
  have ready : inv (runRules first text) :=
    runRules_invariant inv (fun r' mem' => keeps r' (List.mem_append_left _ mem')) start
  rw [runRules_append, runRules_cons]
  exact not_infix_runRules (fun r' mem' => spares r' (by simp [mem']) r mem)
    (removes r mem _ ready)

/-- A text holding no rule's source is left as it is by the run. -/
theorem runRules_eq_self {text : Text} (absent : ∀ r ∈ rules, ¬ r.source <:+: text)
    : runRules rules text = text := by
  induction rules with
  | nil => rfl
  | cons r rules ih =>
      rw [runRules_cons, r.apply_eq_self (absent r (by simp)),
        ih (fun r' mem => absent r' (List.mem_cons_of_mem r mem))]

end GridView
