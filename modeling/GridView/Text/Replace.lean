import Mathlib.Data.List.Infix

/-! Python's `str.replace`, the only text operation the integrator and the branding manager use.
The scan is structural on the text, so a call on literals evaluates by `decide`.
-/

namespace GridView

/-- A Python `str` value, as its sequence of code points. -/
abbrev Text := List Char

variable {α : Type} [DecidableEq α]

-----------------------------------------------------------------------------------------
-- The leftmost, non-overlapping scan
-----------------------------------------------------------------------------------------

/-- The scan behind `str.replace(old, new)` for a nonempty `old`. A match at the current
position emits `new` and skips the rest of the match; `skip` counts what is still skipped.
-/
def replaceScan (old new : List α) : Nat → List α → List α
  | _, [] => []
  | skip + 1, _ :: rest => replaceScan old new skip rest
  | 0, c :: rest =>
      if old <+: c :: rest then new ++ replaceScan old new (old.length - 1) rest
      else c :: replaceScan old new 0 rest

/-- `text.replace(old, new)` with no count: every leftmost non-overlapping occurrence of `old`
becomes `new`. An empty `old` matches before every character and at the end.
-/
def replace (old new text : List α) : List α :=
  match old with
  | [] => new ++ text.flatMap (fun c => c :: new)
  | _ :: _ => replaceScan old new 0 text

/-- Skipping exactly the characters of `skipped` resumes the scan after them. -/
theorem replaceScan_skip (old new skipped rest : List α)
    : replaceScan old new skipped.length (skipped ++ rest) = replaceScan old new 0 rest := by
  induction skipped with
  | nil => rfl
  | cons _ skipped ih => exact ih

section Spec

variable {old : List α} (new : List α) (nonempty : old ≠ [])
include nonempty

theorem replace_eq_scan (text : List α) : replace old new text = replaceScan old new 0 text := by
  cases old with
  | nil => exact absurd rfl nonempty
  | cons _ _ => rfl

@[simp] theorem replace_nil : replace old new [] = [] := by
  rw [replace_eq_scan new nonempty, replaceScan]

/-- A match at the front is replaced and the scan resumes after it. -/
theorem replace_old_append (rest : List α)
    : replace old new (old ++ rest) = new ++ replace old new rest := by
  rw [replace_eq_scan new nonempty, replace_eq_scan new nonempty]
  cases old with
  | nil => exact absurd rfl nonempty
  | cons first tail =>
      have matched : first :: tail <+: first :: (tail ++ rest) := List.prefix_append _ rest
      rw [List.cons_append, replaceScan, if_pos matched, List.length_cons, Nat.add_sub_cancel,
        replaceScan_skip]

/-- Without a match at the front, the first character is kept. -/
theorem replace_cons_of_miss {c : α} {rest : List α} (miss : ¬ old <+: c :: rest)
    : replace old new (c :: rest) = c :: replace old new rest := by
  rw [replace_eq_scan new nonempty, replace_eq_scan new nonempty, replaceScan, if_neg miss]

/-- Induction along the scan: the empty text, a match at the front, or a kept character. -/
theorem replace_induction {motive : List α → Prop} (nil : motive [])
    (hit : ∀ rest, motive rest → motive (old ++ rest))
    (miss : ∀ c rest, ¬ old <+: c :: rest → motive rest → motive (c :: rest))
    (text : List α) : motive text := by
  induction' hsize : text.length using Nat.strong_induction_on with size ih generalizing text
  cases text with
  | nil => exact nil
  | cons c rest =>
      by_cases found : old <+: c :: rest
      · obtain ⟨after, split⟩ := found
        have shorter : after.length < size := by
          have := congrArg List.length split
          have := List.length_pos.mpr nonempty
          simp only [List.length_append, List.length_cons] at *
          omega
        exact split ▸ hit after (ih _ shorter after rfl)
      · exact miss c rest found (ih _ (by simp [← hsize]) rest rfl)

/-- A text without an occurrence of `old` is returned unchanged. -/
theorem replace_eq_self {text : List α} (absent : ¬ old <:+: text)
    : replace old new text = text := by
  induction text using replace_induction nonempty with
  | nil => exact replace_nil new nonempty
  | hit rest _ => exact absurd (List.infix_append [] old rest) absent
  | miss c rest miss ih =>
      rw [replace_cons_of_miss new nonempty miss,
        ih (fun inner => absent (inner.trans (List.suffix_cons c rest).isInfix))]

/-- A stretch in which no match starts is copied, and the scan resumes after it. -/
theorem replace_append_of_clear {kept : List α} (rest : List α)
    (clear : ∀ tail, tail <:+ kept → tail ≠ [] → ¬ old <+: tail ++ rest)
    : replace old new (kept ++ rest) = kept ++ replace old new rest := by
  induction kept with
  | nil => rfl
  | cons c kept ih =>
      have miss : ¬ old <+: c :: (kept ++ rest) :=
        clear (c :: kept) (List.suffix_refl _) (List.cons_ne_nil _ _)
      rw [List.cons_append, replace_cons_of_miss new nonempty miss,
        ih (fun tail inner => clear tail (inner.trans (List.suffix_cons c kept))), List.cons_append]

/-- A letter-by-letter image that cannot tell `old` from `new` cannot tell a text from its
rewrite: the scan only swaps equal images.
-/
theorem replace_flatMap {β : Type} (image : α → List β)
    (same : old.flatMap image = new.flatMap image) (text : List α)
    : (replace old new text).flatMap image = text.flatMap image := by
  induction text using replace_induction nonempty with
  | nil => rw [replace_nil new nonempty]
  | hit rest ih =>
      rw [replace_old_append new nonempty, List.flatMap_append, List.flatMap_append, ih,
        same]
  | miss c rest miss ih =>
      rw [replace_cons_of_miss new nonempty miss, List.flatMap_cons, List.flatMap_cons, ih]

/-- A call whose `new` is no shorter than `old` never shortens a text. -/
theorem length_le_replace (longer : old.length ≤ new.length) (text : List α)
    : text.length ≤ (replace old new text).length := by
  induction text using replace_induction nonempty with
  | nil => simp [replace_nil new nonempty]
  | hit rest ih =>
      rw [replace_old_append new nonempty, List.length_append, List.length_append]
      omega
  | miss c rest miss ih =>
      rw [replace_cons_of_miss new nonempty miss, List.length_cons, List.length_cons]
      omega

/-- A call whose `new` is longer than `old` lengthens every text in which `old` occurs. -/
theorem length_lt_replace {text : List α} (longer : old.length < new.length)
    (found : old <:+: text)
    : text.length < (replace old new text).length := by
  induction text using replace_induction nonempty with
  | nil => exact absurd (List.eq_nil_of_infix_nil found) nonempty
  | hit rest _ =>
      have kept := length_le_replace new nonempty longer.le rest
      rw [replace_old_append new nonempty, List.length_append, List.length_append]
      omega
  | miss c rest miss ih =>
      have later := ih ((List.infix_cons_iff.mp found).resolve_left miss)
      rw [replace_cons_of_miss new nonempty miss, List.length_cons, List.length_cons]
      omega

end Spec

end GridView
