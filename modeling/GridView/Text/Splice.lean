import GridView.Text.Touch

/-! Replacement rules and the texts one `str.replace` call produces. The output of
`replace r.source r.target` is its input with some blocks `r.source` written as `r.target`;
what occurs in the output occurs in the input or touches a written `r.new`.
-/

namespace GridView

-----------------------------------------------------------------------------------------
-- Rules split around the text they change
-----------------------------------------------------------------------------------------

/-- The call `replace (before ++ old ++ after) (before ++ new ++ after)`, with the kept
context `before` and `after` named. A rule writes a nonempty `new`, and its match extends
past `new` on both sides (`before ++ old` and `old ++ after` are not empty).
-/
structure Rule where
  before : Text
  old : Text
  new : Text
  after : Text
  new_ne_nil : new ≠ []
  lead_ne_nil : before ++ old ≠ []
  trail_ne_nil : old ++ after ≠ []
  deriving DecidableEq

namespace Rule

variable (r : Rule)

/-- The text the rule looks for. -/
def source : Text := r.before ++ r.old ++ r.after

/-- The text the rule writes in its place. -/
def target : Text := r.before ++ r.new ++ r.after

theorem source_ne_nil : r.source ≠ [] := by
  have := r.lead_ne_nil
  simp_all [source]

/-- The rule's own `str.replace` call. -/
def apply (text : Text) : Text := replace r.source r.target text

@[simp] theorem apply_nil : r.apply [] = [] := replace_nil _ r.source_ne_nil

/-- A text without the rule's source is left as it is. -/
theorem apply_eq_self {s : Text} (absent : ¬ r.source <:+: s) : r.apply s = s :=
  replace_eq_self _ r.source_ne_nil absent

/-- A match at the front is written as the target. -/
theorem apply_source_append (s : Text) : r.apply (r.source ++ s) = r.target ++ r.apply s :=
  replace_old_append _ r.source_ne_nil s

/-- Without a match at the front, the first character is kept. -/
theorem apply_cons_of_miss {c : Char} {s : Text} (miss : ¬ r.source <+: c :: s)
    : r.apply (c :: s) = c :: r.apply s :=
  replace_cons_of_miss _ r.source_ne_nil miss

theorem before_length_lt : r.before.length < r.source.length := by
  have := List.length_pos.mpr r.trail_ne_nil
  simp only [source, List.length_append] at *
  omega

theorem after_length_lt : r.after.length < r.source.length := by
  have := List.length_pos.mpr r.lead_ne_nil
  simp only [source, List.length_append] at *
  omega

end Rule

-----------------------------------------------------------------------------------------
-- Spliced texts
-----------------------------------------------------------------------------------------

/-- `t` is `s` with some non-overlapping blocks `r.source` written as `r.target`. -/
inductive Spliced (r : Rule) : Text → Text → Prop
  | nil : Spliced r [] []
  | copy (c : Char) {s t : Text} : Spliced r s t → Spliced r (c :: s) (c :: t)
  | splice {s t : Text} : Spliced r s t → Spliced r (r.source ++ s) (r.target ++ t)

variable {r : Rule}

/-- Copied characters in front keep a splicing. -/
theorem Spliced.copyAll (kept : Text) {s t : Text} (spliced : Spliced r s t)
    : Spliced r (kept ++ s) (kept ++ t) := by
  induction kept with
  | nil => exact spliced
  | cons c kept ih => exact ih.copy c

/-- One `str.replace` call splices its input, by induction along the scan. -/
theorem spliced_apply (s : Text) : Spliced r s (r.apply s) := by
  induction s using replace_induction r.source_ne_nil with
  | nil => simpa using Spliced.nil
  | hit rest ih =>
      rw [Rule.apply_source_append]
      exact ih.splice
  | miss c rest miss ih =>
      rw [r.apply_cons_of_miss miss]
      exact ih.copy c

/-- A prefix of a spliced text is a prefix of the original, or touches the first written
`new`. Witness: induction over the splicing; a block is entered through its `before`.
-/
theorem Spliced.prefix_transfer {s t u : Text} (spliced : Spliced r s t) (leading : u <+: t)
    : u <+: s ∨ TouchesFrom r.before r.new r.after u := by
  induction spliced generalizing u with
  | nil => exact .inl leading
  | copy c _ ih =>
      rcases List.prefix_cons_iff.mp leading with rfl | ⟨rest, rfl, tail⟩
      · exact .inl List.nil_prefix
      · rcases ih tail with inner | touch
        · exact .inl (List.cons_prefix_cons.mpr ⟨rfl, inner⟩)
        · exact .inr (touch.append_left [c])
  | @splice s t _ _ =>
      by_cases short : u.length ≤ r.before.length
      · have inner : u <+: r.before :=
          List.prefix_of_prefix_length_le leading
            (by simp [Rule.target, List.append_assoc]) short
        exact .inl (inner.trans (by simp [Rule.source, List.append_assoc]))
      · exact .inr ⟨[], t, by simpa using short, by simpa [Rule.target] using leading⟩

/-- An infix is a prefix of a suffix, taken by `drop`. -/
theorem exists_prefix_drop {u l : Text} (inner : u <:+: l) : ∃ k, u <+: l.drop k := by
  obtain ⟨front, back, rfl⟩ := inner
  exact ⟨front.length, by simp⟩

theorem infix_of_prefix_drop {u l : Text} {k : Nat} (leading : u <+: l.drop k) : u <:+: l :=
  leading.isInfix.trans (List.drop_suffix k l).isInfix

/-- An occurrence whose first character is not in `w` lies after `w`. -/
theorem infix_of_append_of_not_mem {c : Char} {u w rest : Text} (absent : c ∉ w)
    (found : c :: u <:+: w ++ rest) : c :: u <:+: rest := by
  induction w with
  | nil => exact found
  | cons d w ih =>
      rcases List.infix_cons_iff.mp found with leading | inner
      · exact absurd ((List.cons_prefix_cons.mp leading).1 ▸ List.mem_cons_self d w) absent
      · exact ih (fun mem => absent (List.mem_cons_of_mem d mem)) inner

/-- Where an occurrence inside `r.target ++ t` can start: it touches `new`, lies in `before`,
starts inside `after`, or starts in `t`.
-/
theorem Rule.prefix_drop_target {u t : Text} {k : Nat} (leading : u <+: (r.target ++ t).drop k)
    : Touches r.before r.new r.after u ∨ u <:+: r.before ∨
      (∃ j < r.after.length, u <+: r.after.drop j ++ t) ∨ u <:+: t := by
  by_cases written : k < (r.before ++ r.new).length
  · by_cases reaches : r.before.length < k + u.length
    · exact .inl ⟨[], t, k, by simpa using written, by simpa using reaches,
        by simpa [Rule.target] using leading⟩
    · have split : (r.target ++ t).drop k = r.before.drop k ++ (r.new ++ r.after ++ t) := by
        rw [← List.drop_append_of_le_length (by omega)]
        simp [Rule.target]
      refine .inr (.inl (infix_of_prefix_drop (k := k) ?_))
      exact List.prefix_of_prefix_length_le (split ▸ leading) (List.prefix_append _ _)
        (by simp; omega)
  · have split
        : (r.target ++ t).drop k = (r.after ++ t).drop (k - (r.before ++ r.new).length) := by
      rw [Rule.target, List.append_assoc (r.before ++ r.new), List.drop_append_eq_append_drop,
        List.drop_eq_nil_of_le (by omega), List.nil_append]
    rw [split] at leading
    by_cases kept : k - (r.before ++ r.new).length < r.after.length
    · exact .inr (.inr (.inl
        ⟨_, kept, by rwa [List.drop_append_of_le_length (by omega)] at leading⟩))
    · rw [List.drop_append_eq_append_drop, List.drop_eq_nil_of_le (by omega), List.nil_append]
        at leading
      exact .inr (.inr (.inr (infix_of_prefix_drop leading)))

/-- A suffix of `after` followed by the rest is a suffix of the matched block and the rest. -/
theorem Rule.drop_after_suffix (s : Text) (j : Nat) : r.after.drop j ++ s <:+ r.source ++ s := by
  refine ⟨r.before ++ r.old ++ r.after.take j, ?_⟩
  simp only [Rule.source, List.append_assoc]
  rw [← List.append_assoc (r.after.take j), List.take_append_drop]

/-- The kept `before` lies in a matched block. -/
theorem Rule.before_infix (s : Text) : r.before <:+: r.source ++ s :=
  ⟨[], r.old ++ r.after ++ s, by simp [Rule.source]⟩

/-- An infix of a spliced text is an infix of the original, or touches a written `new`.
Witness: induction over the splicing; in a block an occurrence touches `new`, lies in
`before`, or starts in `after`, where the prefix transfer applies.
-/
theorem Spliced.infix_transfer {s t u : Text} (spliced : Spliced r s t) (inner : u <:+: t)
    : u <:+: s ∨ Touches r.before r.new r.after u := by
  induction spliced generalizing u with
  | nil => exact .inl inner
  | copy c spliced ih =>
      rcases List.infix_cons_iff.mp inner with leading | inner
      · exact ((spliced.copy c).prefix_transfer leading).imp List.IsPrefix.isInfix
          (TouchesFrom.touches r.new_ne_nil)
      · exact (ih inner).imp (fun found => found.trans (List.suffix_cons c _).isInfix) id
  | @splice s t spliced ih =>
      obtain ⟨k, leading⟩ := exists_prefix_drop inner
      rcases r.prefix_drop_target leading with touch | kept | ⟨j, _, tail⟩ | later
      · exact .inr touch
      · exact .inl (kept.trans (r.before_infix s))
      · exact ((spliced.copyAll _).prefix_transfer tail).imp
          (fun found => found.isInfix.trans (r.drop_after_suffix s j).isInfix)
          (TouchesFrom.touches r.new_ne_nil)
      · exact (ih later).imp (fun found => found.trans (List.suffix_append _ _).isInfix) id

/-- After a rule's own call, an occurrence of its source that touches nothing written starts
inside the `after` of a replaced block: the input holds `before ++ old ++ after.take j`
directly followed by the source, for some `j < after.length`.
Witness: induction along the scan; at a kept character the occurrence would have matched,
and in a replaced block it can only start inside `after`.
-/
theorem source_infix_apply {s : Text} (found : r.source <:+: r.apply s)
    (clear : ¬ Touches r.before r.new r.after r.source)
    : ∃ j < r.after.length, r.after.drop j <+: r.source ∧
        r.before ++ r.old ++ r.after.take j ++ r.source <:+: s := by
  induction s using replace_induction r.source_ne_nil with
  | nil =>
      rw [Rule.apply_nil, List.infix_nil] at found
      exact absurd found r.source_ne_nil
  | hit rest ih =>
      rw [Rule.apply_source_append] at found
      obtain ⟨k, leading⟩ := exists_prefix_drop found
      rcases r.prefix_drop_target leading with touch | kept | ⟨j, short, tail⟩ | later
      · exact absurd touch clear
      · exact absurd kept.length_le (by have := r.before_length_lt; omega)
      · rcases List.prefix_or_prefix_of_prefix tail (List.prefix_append _ _)
          with long | ⟨more, split⟩
        · exact absurd long.length_le (by have := r.after_length_lt; simp; omega)
        · have shifted : r.after.drop j ++ more <+: r.after.drop j ++ r.apply rest :=
            split ▸ tail
          have more_prefix := (List.prefix_append_right_inj _).mp shifted
          rcases (spliced_apply rest).prefix_transfer more_prefix with kept | touch
          · have whole : r.before ++ r.old ++ r.after.take j ++ r.source = r.source ++ more := by
              conv_lhs => rw [← split]
              simp only [Rule.source, List.append_assoc]
              rw [← List.append_assoc (r.after.take j), List.take_append_drop]
            refine ⟨j, short, ⟨more, split⟩, ?_⟩
            rw [whole]
            exact ((List.prefix_append_right_inj r.source).mpr kept).isInfix
          · exact absurd ((split ▸ touch.append_left _).touches r.new_ne_nil) clear
      · obtain ⟨j, short, overlap, occurs⟩ := ih later
        exact ⟨j, short, overlap, occurs.trans (List.suffix_append _ _).isInfix⟩
  | miss c rest miss ih =>
      rw [r.apply_cons_of_miss miss] at found
      rcases List.infix_cons_iff.mp found with leading | inner
      · rcases ((spliced_apply rest).copy c).prefix_transfer leading with kept | touch
        · exact absurd kept miss
        · exact absurd (touch.touches r.new_ne_nil) clear
      · obtain ⟨j, short, overlap, occurs⟩ := ih inner
        exact ⟨j, short, overlap, occurs.trans (List.suffix_cons c rest).isInfix⟩

-----------------------------------------------------------------------------------------
-- What one call leaves behind
-----------------------------------------------------------------------------------------

/-- A rule's call creates no occurrence of a pattern that touches nothing it writes. -/
theorem not_infix_apply {u s : Text} (absent : ¬ u <:+: s)
    (clear : ¬ Touches r.before r.new r.after u) : ¬ u <:+: r.apply s :=
  fun found => ((spliced_apply s).infix_transfer found).elim absent clear

/-- A rule that keeps nothing after its change leaves no occurrence of its source, when the
source touches nothing the rule writes.
-/
theorem source_not_infix_apply (bare : r.after = [])
    (clear : ¬ Touches r.before r.new r.after r.source) (s : Text) : ¬ r.source <:+: r.apply s :=
  fun found => by
    obtain ⟨j, short, -⟩ := source_infix_apply found clear
    simp [bare] at short

/-- A pattern that cannot overlap a source: no occurrence of the source starts inside the
pattern, and the pattern starts at no position of the source.
-/
def Apart (u source : Text) : Prop :=
  (∀ i < u.length, agree (u.drop i) source = false)
    ∧ ∀ j < source.length, agree u (source.drop j) = false

instance (u source : Text) : Decidable (Apart u source) := inferInstanceAs (Decidable (_ ∧ _))

/-- A prefix of the text in which no occurrence of the source starts is copied. -/
theorem Rule.prefix_apply {u s : Text}
    (starts : ∀ i < u.length, agree (u.drop i) r.source = false) (leading : u <+: s)
    : u <+: r.apply s := by
  induction u generalizing s with
  | nil => exact List.nil_prefix
  | cons c u ih =>
      obtain ⟨t, rfl⟩ := leading
      have miss : ¬ r.source <+: c :: (u ++ t) := fun ⟨after, written⟩ =>
        have occurs : c :: u <+: r.source ++ after := by rw [written]; exact List.prefix_append _ t
        absurd (agree_of_prefix_append occurs) (by simpa using starts 0 (Nat.succ_pos _))
      rw [List.cons_append, r.apply_cons_of_miss miss]
      exact (List.prefix_cons_inj c).mpr
        (ih (fun i short => starts (i + 1) (Nat.succ_lt_succ short)) (List.prefix_append u t))

/-- An occurrence of a pattern apart from the source survives the call: the scan neither
writes over it nor skips into it.
-/
theorem Rule.infix_apply {u s : Text} (apart : Apart u r.source) (found : u <:+: s)
    : u <:+: r.apply s := by
  induction s using replace_induction r.source_ne_nil with
  | nil => rw [List.eq_nil_of_infix_nil found]; exact List.nil_infix
  | hit rest ih =>
      obtain ⟨k, leading⟩ := exists_prefix_drop found
      rw [List.drop_append_eq_append_drop] at leading
      rw [Rule.apply_source_append]
      by_cases inside : k < r.source.length
      · exact absurd (agree_of_prefix_append leading) (by simp [apart.2 k inside])
      · rw [List.drop_eq_nil_of_le (Nat.le_of_not_lt inside), List.nil_append] at leading
        exact (ih (infix_of_prefix_drop leading)).trans (List.suffix_append _ _).isInfix
  | miss c rest miss ih =>
      rcases List.infix_cons_iff.mp found with leading | inner
      · exact (r.prefix_apply apart.1 leading).isInfix
      · rw [r.apply_cons_of_miss miss]
        exact (ih inner).trans (List.suffix_cons c _).isInfix

end GridView
