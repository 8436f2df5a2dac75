import GridView.Text.Run

/-! The URL rewrite of `superset_proxy`'s HTML branch, repeated verbatim in
`superset_login_redirect`: six `str.replace` calls on Superset's HTML-escaped bootstrap JSON,
each inserting the GridView prefix right after the `&#34;/` that opens one entry's value.
-/

namespace GridView.Integrator

-----------------------------------------------------------------------------------------
-- The calls as the handlers write them
-----------------------------------------------------------------------------------------

/-- The `(old, new)` arguments of the six `content.replace` calls, in order. -/
def bootstrapUrlRewrites : List (String × String) :=
  [("&#34;application_root&#34;: &#34;/&#34;",
      "&#34;application_root&#34;: &#34;/gridview/superset&#34;"),
    ("&#34;path&#34;: &#34;/superset/", "&#34;path&#34;: &#34;/gridview/superset/superset/"),
    ("&#34;user_info_url&#34;: &#34;/user_info/&#34;",
      "&#34;user_info_url&#34;: &#34;/gridview/superset/user_info/&#34;"),
    ("&#34;user_logout_url&#34;: &#34;/logout/&#34;",
      "&#34;user_logout_url&#34;: &#34;/gridview/superset/logout/&#34;"),
    ("&#34;user_login_url&#34;: &#34;/login/&#34;",
      "&#34;user_login_url&#34;: &#34;/gridview/superset/login/&#34;"),
    ("&#34;url&#34;: &#34;/lang/", "&#34;url&#34;: &#34;/gridview/superset/lang/")]

/-- The rewrite of a `text/html` body: `content = content.replace(old, new)` for each call. -/
def rewriteBootstrapUrls (content : Text) : Text :=
  bootstrapUrlRewrites.foldl (fun content (old, new) => replace old.toList new.toList content)
    content

-----------------------------------------------------------------------------------------
-- The calls as insertion rules
-----------------------------------------------------------------------------------------

/-- The HTML escape `&#34;` of a double quote. -/
def escapedQuote : Text := "&#34;".toList

/-- The entry `&#34;key&#34;: &#34;/value...` gaining `inserted` right after its `&#34;/`. -/
def entryRule (key : String) (value inserted : Text) (valued : value ≠ [])
    (written : inserted ≠ []) : Rule :=
  ⟨escapedQuote ++ key.toList ++ escapedQuote ++ ": ".toList ++ escapedQuote ++ ['/'], [],
    inserted, value, written, by simp [escapedQuote], by simpa using valued⟩

/-- The six calls as rules, in order. -/
def bootstrapRules : List Rule :=
  [entryRule "application_root" escapedQuote "gridview/superset".toList (by decide) (by decide),
    entryRule "path" "superset/".toList "gridview/superset/".toList (by decide) (by decide),
    entryRule "user_info_url" ("user_info/".toList ++ escapedQuote) "gridview/superset/".toList
      (by decide) (by decide),
    entryRule "user_logout_url" ("logout/".toList ++ escapedQuote) "gridview/superset/".toList
      (by decide) (by decide),
    entryRule "user_login_url" ("login/".toList ++ escapedQuote) "gridview/superset/".toList
      (by decide) (by decide),
    entryRule "url" "lang/".toList "gridview/superset/".toList (by decide) (by decide)]

/-- The rules' sources and targets are exactly the calls' arguments. -/
theorem bootstrapRules_calls
    : bootstrapRules.map (fun r => (r.source, r.target))
      = bootstrapUrlRewrites.map (fun call => (call.1.toList, call.2.toList)) := by
  decide

/-- The rewrite is the run of the six rules. -/
theorem rewriteBootstrapUrls_eq (content : Text)
    : rewriteBootstrapUrls content = runRules bootstrapRules content := by
  rw [rewriteBootstrapUrls, ← foldl_replace_eq_runRules _ _ bootstrapRules_calls, List.foldl_map]

-----------------------------------------------------------------------------------------
-- Escaped JSON: no letter after `/&#34;`
-----------------------------------------------------------------------------------------

/-- A slash directly followed by an escaped quote. -/
def slashQuote : Text := '/' :: escapedQuote

/-- Somewhere an escaped quote that directly follows `/` is directly followed by an ASCII
letter. HTML-escaped JSON closes a string value with `&#34;` followed by `,`, `}`, `]`, `:`
or a blank, so a bootstrap payload never has one.
-/
def SlashQuoteLetter (text : Text) : Prop := ∃ c, c.isAlpha ∧ slashQuote ++ [c] <:+: text

/-- Whether the text starts with `/&#34;` and an ASCII letter. -/
def startsSlashQuoteLetter (text : Text) : Bool :=
  match text.drop slashQuote.length with
  | c :: _ => slashQuote.isPrefixOf text && c.isAlpha
  | [] => false

/-- Whether `/&#34;` and an ASCII letter occur somewhere in the text. -/
def hasSlashQuoteLetter : Text → Bool
  | [] => false
  | c :: rest => startsSlashQuoteLetter (c :: rest) || hasSlashQuoteLetter rest

theorem startsSlashQuoteLetter_iff {text : Text}
    : startsSlashQuoteLetter text = true ↔ ∃ c, c.isAlpha ∧ slashQuote ++ [c] <+: text := by
  unfold startsSlashQuoteLetter
  constructor
  · split
    · rename_i c more split
      simp only [Bool.and_eq_true, List.isPrefixOf_iff_prefix]
      rintro ⟨⟨rest, rfl⟩, alpha⟩
      rw [List.drop_left] at split
      exact ⟨c, alpha, by simp [split]⟩
    · simp
  · rintro ⟨c, alpha, rest, rfl⟩
    simp [alpha]

theorem slashQuoteLetter_iff {text : Text}
    : SlashQuoteLetter text ↔ hasSlashQuoteLetter text = true := by
  induction text with
  | nil => simp [SlashQuoteLetter, hasSlashQuoteLetter, slashQuote]
  | cons c rest ih =>
      simp only [SlashQuoteLetter, List.infix_cons_iff, hasSlashQuoteLetter, Bool.or_eq_true,
        startsSlashQuoteLetter_iff, ← ih, exists_and_left, ← exists_or, and_or_left]

instance : DecidablePred SlashQuoteLetter :=
  fun _ => decidable_of_iff _ slashQuoteLetter_iff.symm

theorem SlashQuoteLetter.mono {inner text : Text} (found : SlashQuoteLetter inner)
    (within : inner <:+: text) : SlashQuoteLetter text :=
  let ⟨c, alpha, occurs⟩ := found
  ⟨c, alpha, occurs.trans within⟩

-----------------------------------------------------------------------------------------
-- One call on escaped JSON
-----------------------------------------------------------------------------------------

/-- A rule's call keeps a text free of `/&#34;` before a letter when `/&#34;` touches nothing
it writes and does not end its `before`.
-/
def keepsEscaped (r : Rule) : Bool :=
  touchFree r.before r.new r.after slashQuote && !slashQuote.isSuffixOf r.before &&
    decide (slashQuote.length ≤ r.before.length)

/-- A rule's call removes its source from escaped JSON when its source touches nothing it
writes and every overlap of the source with the `after` of a match spells `/&#34;` and a letter.
-/
def removesSource (r : Rule) : Bool :=
  touchFree r.before r.new r.after r.source &&
    (List.range r.after.length).all fun j =>
      !(r.after.drop j).isPrefixOf r.source ||
        hasSlashQuoteLetter (r.before ++ r.old ++ r.after.take j ++ r.source)

variable {r : Rule} {t : Text}

/-- Escaped JSON stays escaped through a call that passes `keepsEscaped`.
Witness: a new `/&#34;` and letter would touch the written text, and so `/&#34;` would touch
it or end `before`.
-/
theorem escaped_apply (keeps : keepsEscaped r = true) (escaped : ¬ SlashQuoteLetter t)
    : ¬ SlashQuoteLetter (r.apply t) := by
  simp only [keepsEscaped, Bool.and_eq_true, Bool.not_eq_true', decide_eq_true_eq] at keeps
  obtain ⟨⟨free, not_end⟩, short⟩ := keeps
  rintro ⟨c, alpha, found⟩
  rcases (spliced_apply t).infix_transfer found with old | touch
  · exact escaped ⟨c, alpha, old⟩
  · rcases touch.of_append_singleton short with touch | ends
    · exact not_touches_of_touchFree free touch
    · exact absurd (List.isSuffixOf_iff_suffix.mpr ends) (by simp [not_end])

/-- A call that passes `removesSource` leaves no occurrence of its source in escaped JSON.
Witness: a left-over occurrence starts inside the `after` of a replaced block, and the input
then holds `/&#34;` and a letter.
-/
theorem source_not_infix_apply_of_escaped (removes : removesSource r = true)
    (escaped : ¬ SlashQuoteLetter t) : ¬ r.source <:+: r.apply t := by
  simp only [removesSource, Bool.and_eq_true, List.all_eq_true, List.mem_range,
    Bool.or_eq_true, Bool.not_eq_true', List.isPrefixOf_iff_prefix] at removes
  intro found
  obtain ⟨j, short, overlap, occurs⟩ :=
    source_infix_apply found (not_touches_of_touchFree removes.1)
  rcases removes.2 j short with differ | spelled
  · exact absurd (List.isPrefixOf_iff_prefix.mpr overlap) (by simp [differ])
  · exact escaped ((slashQuoteLetter_iff.mpr spelled).mono occurs)

-----------------------------------------------------------------------------------------
-- The six calls on escaped JSON
-----------------------------------------------------------------------------------------

/-- A fragment of Superset's bootstrap payload as the login page escapes it. -/
def sampleBootstrap : Text :=
  ("&#34;application_root&#34;: &#34;/&#34;, &#34;path&#34;: &#34;/superset/welcome/&#34;, " ++
    "&#34;user_login_url&#34;: &#34;/login/&#34;, &#34;url&#34;: &#34;/lang/en&#34;").toList

/-- Each rule keeps JSON escaped and removes its own source from it. -/
theorem bootstrapRules_removing
    : ∀ r ∈ bootstrapRules, keepsEscaped r = true ∧ removesSource r = true := by
  decide

/-- Every rule writes the GridView prefix, with a trailing slash but for the application root. -/
theorem bootstrapRules_new
    : ∀ r ∈ bootstrapRules,
      r.new = "gridview/superset/".toList ∨ r.new = "gridview/superset".toList := by
  decide

/-- Neither form of the prefix meets any rule's source, whatever surrounds it. -/
theorem prefix_spares_sources
    : ∀ r ∈ bootstrapRules, touchFree [] "gridview/superset/".toList [] r.source = true
      ∧ touchFree [] "gridview/superset".toList [] r.source = true := by
  decide

/-- No rule writes over any rule's source, whatever surrounds the written prefix. -/
theorem bootstrapRules_sparing
    : ∀ r ∈ bootstrapRules, ∀ r' ∈ bootstrapRules,
      touchFree [] r.new [] r'.source = true := by
  intro r known r' known'
  rcases bootstrapRules_new r known with written | written <;> rw [written]
  exacts [(prefix_spares_sources r' known').1, (prefix_spares_sources r' known').2]

/-- Every first argument of the six calls is the source of one of the rules. -/
theorem exists_bootstrapRule {call : String × String} (listed : call ∈ bootstrapUrlRewrites)
    : ∃ r ∈ bootstrapRules, r.source = call.1.toList := by
  have mapped := List.mem_map_of_mem (fun call => (call.1.toList, call.2.toList)) listed
  rw [← bootstrapRules_calls] at mapped
  obtain ⟨r, known, same⟩ := List.mem_map.mp mapped
  exact ⟨r, known, congrArg Prod.fst same⟩

/-- On escaped JSON the run of the six rules leaves none of their sources.
Witness: escaped JSON stays escaped through every call, each call removes its own entry from
it, and no later call writes an entry back.
-/
theorem bootstrapRules_gone {content : Text} (escaped : ¬ SlashQuoteLetter content)
    : ∀ r ∈ bootstrapRules, ¬ r.source <:+: runRules bootstrapRules content :=
  source_not_infix_runRules (fun t => ¬ SlashQuoteLetter t)
    (fun r known _ => escaped_apply (bootstrapRules_removing r known).1)
    (fun r known _ => source_not_infix_apply_of_escaped (bootstrapRules_removing r known).2)
    (fun r known r' known' touch =>
      not_touches_of_touchFree (bootstrapRules_sparing r known r' known') touch.forget)
    escaped

/-- On escaped JSON the rewrite leaves none of the six unprefixed entries, by the rules'
removal.
-/
theorem rewriteBootstrapUrls_unprefixed {content : Text} (escaped : ¬ SlashQuoteLetter content)
    : ∀ call ∈ bootstrapUrlRewrites, ¬ call.1.toList <:+: rewriteBootstrapUrls content := by
  intro call listed
  obtain ⟨r, known, same⟩ := exists_bootstrapRule listed
  rw [rewriteBootstrapUrls_eq, ← same]
  exact bootstrapRules_gone escaped r known

/-- On escaped JSON the rewrite leaves none of the six unprefixed entries, so a second
rewrite changes nothing.
Witness: no entry is left, and a text without entries is a fixed point of every call.
-/
theorem rewriteBootstrapUrls_prefixes_all (content : Text) (escaped : ¬ SlashQuoteLetter content)
    : (∀ call ∈ bootstrapUrlRewrites, ¬ call.1.toList <:+: rewriteBootstrapUrls content)
      ∧ rewriteBootstrapUrls (rewriteBootstrapUrls content) = rewriteBootstrapUrls content :=
  ⟨rewriteBootstrapUrls_unprefixed escaped, by
    simp only [rewriteBootstrapUrls_eq, runRules_eq_self (bootstrapRules_gone escaped)]⟩

/-- A bootstrap fragment with all three kinds of value endings is escaped JSON. -/
theorem rewriteBootstrapUrls_prefixes_sample
    : ¬ SlashQuoteLetter sampleBootstrap
      ∧ (∀ call ∈ bootstrapUrlRewrites, ¬ call.1.toList <:+: rewriteBootstrapUrls sampleBootstrap)
      ∧ rewriteBootstrapUrls (rewriteBootstrapUrls sampleBootstrap)
        = rewriteBootstrapUrls sampleBootstrap :=
  ⟨by decide, rewriteBootstrapUrls_prefixes_all sampleBootstrap (by decide)⟩

end GridView.Integrator
