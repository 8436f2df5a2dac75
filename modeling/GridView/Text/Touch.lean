import GridView.Text.Replace

/-! Whether a pattern can meet a changed stretch of text. A rewrite keeps `before` and `after`
around the `new` text it writes; a pattern that covers no character of `new` is one the
rewrite did not create. The executable test `touchFree` decides this for literals.
-/

namespace GridView

-----------------------------------------------------------------------------------------
-- Meeting a written stretch
-----------------------------------------------------------------------------------------

/-- `u` occurs at offset `i` of some text `L ++ before ++ new ++ after ++ R` and covers at
least one character of `new`; `L` and `R` stand for whatever surrounds the kept context.
-/
def Touches (before new after u : Text) : Prop :=
  ∃ L R i, i < (L ++ before ++ new).length ∧ (L ++ before).length < i + u.length ∧
    u <+: (L ++ (before ++ new ++ after ++ R)).drop i

/-- Whether one of two texts is a prefix of the other, i.e. they agree where both exist. -/
def agree (x y : Text) : Bool := x.isPrefixOf y || y.isPrefixOf x

/-- The finite check behind `Touches`: every offset at which `u` could start inside
`before ++ new`, and every offset at which it could start to the left of `before`.
-/
def touchFree (before new after u : Text) : Bool :=
  (List.range (before ++ new).length).all (fun i =>
      !(decide (before.length < i + u.length) && agree u ((before ++ new ++ after).drop i))) &&
  (List.range u.length).all (fun j =>
      !(decide (0 < j) && decide (before.length + j < u.length) &&
        agree (u.drop j) (before ++ new ++ after)))

/-- A prefix of `window ++ rest` agrees with `window`. -/
theorem agree_of_prefix_append {u window rest : Text} (occurs : u <+: window ++ rest)
    : agree u window = true := by
  simp only [agree, Bool.or_eq_true, List.isPrefixOf_iff_prefix]
  exact List.prefix_or_prefix_of_prefix occurs (List.prefix_append window rest)

/-- The check is sound: a pattern it clears meets no written stretch, in any surroundings.
Witness: an occurrence starting at or after `L` is an offset of the first loop, one starting
inside `L` is an offset of the second.
-/
theorem not_touches_of_touchFree {before new after u : Text}
    (free : touchFree before new after u = true) : ¬ Touches before new after u := by
  rintro ⟨L, R, i, starts, reaches, occurs⟩
  simp only [touchFree, Bool.and_eq_true, List.all_eq_true, List.mem_range, Bool.not_eq_true',
    Bool.and_eq_false_iff, decide_eq_false_iff_not] at free
  simp only [List.length_append] at starts reaches
  by_cases inside : L.length ≤ i
  · have shifted : (L ++ (before ++ new ++ after ++ R)).drop i
        = (before ++ new ++ after).drop (i - L.length) ++ R := by
      rw [List.drop_append_eq_append_drop, List.drop_eq_nil_of_le inside, List.nil_append,
        List.drop_append_of_le_length (by simp; omega)]
    rcases free.1 (i - L.length) (by simp; omega) with far | differ
    · omega
    · exact absurd (agree_of_prefix_append (shifted ▸ occurs)) (Bool.eq_false_iff.mp differ)
  · have shifted : (L ++ (before ++ new ++ after ++ R)).drop i
        = L.drop i ++ (before ++ new ++ after ++ R) := List.drop_append_of_le_length (by omega)
    have dropped := (shifted ▸ occurs).drop (L.drop i).length
    rw [List.drop_left] at dropped
    rcases free.2 (L.length - i) (by omega) with ((zero | far) | differ)
    · omega
    · omega
    · simp only [List.length_drop] at dropped
      exact absurd (agree_of_prefix_append dropped) (Bool.eq_false_iff.mp differ)

/-- `Touches` at offset zero: `u` starts with the surroundings `L` and reaches into `new`. -/
def TouchesFrom (before new after u : Text) : Prop :=
  ∃ L R, (L ++ before).length < u.length ∧ u <+: L ++ (before ++ new ++ after ++ R)

/-- A touch from the start is a touch, since `new` is not empty. -/
theorem TouchesFrom.touches {before new after u : Text} (written : new ≠ [])
    (touch : TouchesFrom before new after u) : Touches before new after u := by
  obtain ⟨L, R, reaches, occurs⟩ := touch
  refine ⟨L, R, 0, ?_, by simpa using reaches, by simpa using occurs⟩
  simp only [List.length_append]
  have := List.length_pos.mpr written
  omega

/-- Characters in front of a touch from the start join its surroundings. -/
theorem TouchesFrom.append_left {before new after u : Text} (front : Text)
    (touch : TouchesFrom before new after u) : TouchesFrom before new after (front ++ u) := by
  obtain ⟨L, R, reaches, occurs⟩ := touch
  refine ⟨front ++ L, R, by simpa using reaches, ?_⟩
  simpa only [List.append_assoc, List.prefix_append_right_inj] using occurs

/-- Context only ever rules touches out: a touch with context is a touch without it. -/
theorem Touches.forget {before new after u : Text} (touch : Touches before new after u)
    : Touches [] new [] u := by
  obtain ⟨L, R, i, starts, reaches, occurs⟩ := touch
  exact ⟨L ++ before, after ++ R, i, by simpa using starts, by simpa using reaches,
    by simpa using occurs⟩

/-- A touch by `u ++ [c]` is a touch by `u`, unless `u` ends just where `new` starts and so
is a suffix of `before` (when it is no longer than `before`).
-/
theorem Touches.of_append_singleton {before new after u : Text} {c : Char}
    (touch : Touches before new after (u ++ [c])) (short : u.length ≤ before.length)
    : Touches before new after u ∨ u <:+ before := by
  obtain ⟨L, R, i, starts, reaches, occurs⟩ := touch
  have shorter : u <+: (L ++ (before ++ new ++ after ++ R)).drop i :=
    (List.prefix_append u [c]).trans occurs
  by_cases covers : (L ++ before).length < i + u.length
  · exact .inl ⟨L, R, i, starts, covers, shorter⟩
  · right
    simp only [List.length_append, List.length_singleton] at covers reaches
    have split : (L ++ (before ++ new ++ after ++ R)).drop i
        = (L ++ before).drop i ++ (new ++ after ++ R) := by
      rw [← List.drop_append_of_le_length (by simp; omega)]
      simp only [List.append_assoc]
    rw [split] at shorter
    have same : u = (L ++ before).drop i :=
      List.prefix_of_prefix_length_le shorter (List.prefix_append _ _) (by simp; omega)
        |>.eq_of_length (by simp; omega)
    have tail : u <:+ L ++ before := same ▸ List.drop_suffix i (L ++ before)
    rw [← List.reverse_prefix] at tail ⊢
    rw [List.reverse_append] at tail
    exact List.prefix_of_prefix_length_le tail (List.prefix_append _ _) (by simpa using short)

end GridView
