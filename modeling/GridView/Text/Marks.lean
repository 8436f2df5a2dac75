import GridView.Text.Run
import Mathlib.Data.List.Chain

/-! Marked texts: the input's characters with a mark wherever a rule rewrote, so that one
list reads as the input (a mark stands for the rule's `old`) and as the output (a mark stands
for the rule's `new`). A chain of calls on the output is followed by the same rules on the
marked text, as long as no rule's source can meet what another rule wrote.
-/

namespace GridView

-----------------------------------------------------------------------------------------
-- Pieces and their two readings
-----------------------------------------------------------------------------------------

/-- A character of the input, or the place where a rule wrote its `new`. -/
inductive Piece where
  | char (c : Char)
  | mark (r : Rule)
  deriving DecidableEq

/-- What a piece stood for in the input. -/
def Piece.plain : Piece → Text
  | .char c => [c]
  | .mark r => r.old

/-- What a piece reads as in the output. -/
def Piece.expand : Piece → Text
  | .char c => [c]
  | .mark r => r.new

/-- The input a marked text was made from. -/
def plainText (pieces : List Piece) : Text := pieces.flatMap Piece.plain

/-- The output a marked text stands for. -/
def expandText (pieces : List Piece) : Text := pieces.flatMap Piece.expand

@[simp] theorem plainText_nil : plainText [] = [] := rfl

@[simp] theorem plainText_cons (p : Piece) (pieces : List Piece)
    : plainText (p :: pieces) = p.plain ++ plainText pieces := rfl

@[simp] theorem plainText_append (front back : List Piece)
    : plainText (front ++ back) = plainText front ++ plainText back := List.flatMap_append ..

@[simp] theorem plainText_chars (text : Text) : plainText (text.map .char) = text := by
  induction text <;> simp_all [Piece.plain]

@[simp] theorem expandText_nil : expandText [] = [] := rfl

@[simp] theorem expandText_cons (p : Piece) (pieces : List Piece)
    : expandText (p :: pieces) = p.expand ++ expandText pieces := rfl

@[simp] theorem expandText_append (front back : List Piece)
    : expandText (front ++ back) = expandText front ++ expandText back := List.flatMap_append ..

@[simp] theorem expandText_chars (text : Text) : expandText (text.map .char) = text := by
  induction text <;> simp_all [Piece.expand]

/-- Every mark sits where its rule matched the input: its `before` ends the input up to the
mark and its `after` starts the input after it.
-/
def MarksPlaced (pieces : List Piece) : Prop :=
  ∀ front r back, pieces = front ++ .mark r :: back →
    r.before <:+ plainText front ∧ r.after <+: plainText back

/-- `MarksPlaced` read from the left, with `front` the input before the pieces. -/
def PlacedAfter : Text → List Piece → Prop
  | _, [] => True
  | front, .char c :: rest => PlacedAfter (front ++ [c]) rest
  | front, .mark r :: rest =>
      r.before <:+ front ∧ r.after <+: plainText rest ∧ PlacedAfter (front ++ r.old) rest

@[simp] theorem placedAfter_chars (front text : Text) (pieces : List Piece)
    : PlacedAfter front (text.map .char ++ pieces) ↔ PlacedAfter (front ++ text) pieces := by
  induction text generalizing front with
  | nil => simp
  | cons c text ih => simp [PlacedAfter, ih]

/-- Reading from the left checks every mark against the whole input before it, by
induction over the pieces.
-/
theorem placedAfter_iff {front : Text} {pieces : List Piece}
    : PlacedAfter front pieces ↔ ∀ pre r back, pieces = pre ++ .mark r :: back →
        r.before <:+ front ++ plainText pre ∧ r.after <+: plainText back := by
  induction pieces generalizing front with
  | nil => simp [PlacedAfter]
  | cons p rest ih =>
      cases p with
      | char c =>
          simp only [PlacedAfter, ih, List.cons_eq_append_iff, plainText_cons, Piece.plain]
          constructor
          · rintro placed pre r back (⟨rfl, split⟩ | ⟨pre, rfl, rfl⟩)
            · cases split
            · simpa using placed pre r back rfl
          · exact fun placed pre r back split => by
              simpa using placed (.char c :: pre) r back (.inr ⟨pre, rfl, split⟩)
      | mark r =>
          simp only [PlacedAfter, ih, List.cons_eq_append_iff, plainText_cons, Piece.plain]
          constructor
          · rintro ⟨ends, starts, placed⟩ pre r' back (⟨rfl, split⟩ | ⟨pre, rfl, rfl⟩)
            · cases split
              exact ⟨by simpa using ends, starts⟩
            · simpa using placed pre r' back rfl
          · intro placed
            refine ⟨by simpa using (placed [] r rest (.inl ⟨rfl, rfl⟩)).1,
              (placed [] r rest (.inl ⟨rfl, rfl⟩)).2, fun pre r' back split => ?_⟩
            simpa using placed (.mark r :: pre) r' back (.inr ⟨pre, rfl, split⟩)

theorem marksPlaced_iff {pieces : List Piece} : MarksPlaced pieces ↔ PlacedAfter [] pieces := by
  simp [MarksPlaced, placedAfter_iff]

/-- No mark directly follows another: at each place of the input at most one rule wrote. -/
def MarksApart (pieces : List Piece) : Prop :=
  ∀ front r r' back, pieces ≠ front ++ .mark r :: .mark r' :: back

/-- Whether a piece is a character of the input. -/
def Piece.isChar : Piece → Bool
  | .char _ => true
  | .mark _ => false

/-- Of every two neighbouring pieces one is a character: the form of `MarksApart` that each
step of a scan keeps.
-/
def Spaced (pieces : List Piece) : Prop := pieces.Chain' fun p q => p.isChar || q.isChar

theorem Spaced.marksApart {pieces : List Piece} (spaced : Spaced pieces) : MarksApart pieces := by
  rintro front r r' back rfl
  simpa [Piece.isChar] using (List.chain'_append_cons_cons.mp spaced).2.1

theorem spaced_chars_append (text : Text) {rest : List Piece} (spaced : Spaced rest)
    : Spaced (text.map .char ++ rest) := by
  induction text with
  | nil => exact spaced
  | cons c text ih => exact ih.cons' fun _ _ => by simp [Piece.isChar]

/-- A mark may stand before a text that starts with a character. -/
theorem spaced_mark_cons {r : Rule} {rest : List Piece} (spaced : Spaced rest)
    (led : ∀ p ∈ rest.head?, p.isChar = true) : Spaced (.mark r :: rest) :=
  spaced.cons' fun p found => by simp [led p found]

/-- Before a text that starts with a character stand its characters and then a mark. -/
theorem spaced_written (r : Rule) (closes : r.after ≠ []) {rest : List Piece} (spaced : Spaced rest)
    : Spaced (r.before.map .char ++ .mark r :: (r.after.map .char ++ rest)) := by
  refine spaced_chars_append _ (spaced_mark_cons (spaced_chars_append _ spaced) ?_)
  obtain ⟨c, cs, split⟩ := List.exists_cons_of_ne_nil closes
  simp [split, Piece.isChar]

-----------------------------------------------------------------------------------------
-- A rule's call on a marked text
-----------------------------------------------------------------------------------------

/-- The rule's call on a marked text: its source, spelled in characters, becomes `before`,
a mark, and `after`. Marks already there never match, since the source is all characters.
-/
def Rule.markApply (r : Rule) (pieces : List Piece) : List Piece :=
  replace (r.source.map .char) (r.before.map .char ++ .mark r :: r.after.map .char) pieces

variable {r : Rule}

theorem Rule.chars_ne_nil (r : Rule) : r.source.map Piece.char ≠ [] := by
  simpa using r.source_ne_nil

@[simp] theorem Rule.markApply_nil : r.markApply [] = [] := replace_nil _ r.chars_ne_nil

/-- A match at the front becomes `before`, the rule's mark and `after`. -/
theorem Rule.markApply_chars_append (rest : List Piece)
    : r.markApply (r.source.map .char ++ rest)
      = r.before.map .char ++ .mark r :: r.after.map .char ++ r.markApply rest :=
  replace_old_append _ r.chars_ne_nil rest

/-- Without a match at the front, the first piece is kept. -/
theorem Rule.markApply_cons_of_miss {p : Piece} {rest : List Piece}
    (miss : ¬ r.source.map .char <+: p :: rest)
    : r.markApply (p :: rest) = p :: r.markApply rest :=
  replace_cons_of_miss _ r.chars_ne_nil miss

/-- The call on the marked text keeps the input it reads as. -/
@[simp] theorem plainText_markApply (pieces : List Piece)
    : plainText (r.markApply pieces) = plainText pieces :=
  replace_flatMap _ r.chars_ne_nil Piece.plain
    (show plainText _ = plainText _ by simp [Rule.source, Piece.plain]) pieces

/-- The call's marks are the ones already there and its own. -/
theorem mem_markApply {r' : Rule} {pieces : List Piece} (found : .mark r' ∈ r.markApply pieces)
    : .mark r' ∈ pieces ∨ r' = r := by
  induction pieces using replace_induction r.chars_ne_nil with
  | nil => simp at found
  | hit rest ih =>
      rw [Rule.markApply_chars_append] at found
      simp only [List.append_assoc, List.mem_append, List.mem_map, List.mem_cons,
        Piece.mark.injEq, reduceCtorEq, and_false, exists_false, false_or, or_false] at found
      rcases found with rfl | later
      · exact .inr rfl
      · exact (ih later).imp_left (List.mem_append_right _)
  | miss p rest _ ih =>
      rw [Rule.markApply_cons_of_miss ‹_›] at found
      rcases List.mem_cons.mp found with rfl | later
      · exact .inl (List.mem_cons_self _ _)
      · exact (ih later).imp_left (List.mem_cons_of_mem p)

/-- A call keeps a character at the front, since a match there starts with `before`. -/
theorem Rule.headChar_markApply (opens : r.before ≠ []) {pieces : List Piece}
    (led : ∀ p ∈ pieces.head?, p.isChar = true) : ∀ p ∈ (r.markApply pieces).head?, p.isChar = true := by
  rcases pieces with _ | ⟨p, rest⟩
  · simp
  by_cases matched : r.source.map .char <+: p :: rest
  · obtain ⟨tail, split⟩ := matched
    obtain ⟨c, cs, written⟩ := List.exists_cons_of_ne_nil opens
    rw [← split, Rule.markApply_chars_append]
    simp [written, Piece.isChar]
  · rwa [Rule.markApply_cons_of_miss matched]

/-- A call keeps marks apart when its rule keeps context on both sides of what it writes.
Witness: the new mark stands between characters of `before` and `after`, and a kept mark is
followed by a kept character or by the `before` of a match.
-/
theorem Rule.spaced_markApply (opens : r.before ≠ []) (closes : r.after ≠ []) {pieces : List Piece}
    (spaced : Spaced pieces) : Spaced (r.markApply pieces) := by
  induction pieces using replace_induction r.chars_ne_nil with
  | nil => simp [Spaced]
  | hit rest ih =>
      rw [Rule.markApply_chars_append, List.append_assoc, List.cons_append]
      exact spaced_written r closes (ih (List.Chain'.right_of_append spaced))
  | miss p rest _ ih =>
      rw [Rule.markApply_cons_of_miss ‹_›]
      obtain ⟨first, later⟩ := List.chain'_cons'.mp spaced
      refine (ih later).cons' fun q found => ?_
      cases p with
      | char c => simp [Piece.isChar]
      | mark r' =>
          have led : ∀ p ∈ rest.head?, p.isChar = true := fun p found => by
            simpa [Piece.isChar] using first p found
          rw [Rule.headChar_markApply opens led q found, Bool.or_true]

/-- Marks placed in the input stay placed through a call, which only adds placed marks.
Witness: induction along the scan; the new mark has the matched `before` and `after`
around it.
-/
theorem placedAfter_markApply {front : Text} {pieces : List Piece}
    (placed : PlacedAfter front pieces) : PlacedAfter front (r.markApply pieces) := by
  induction pieces using replace_induction r.chars_ne_nil generalizing front with
  | nil => rwa [Rule.markApply_nil]
  | hit rest ih =>
      rw [placedAfter_chars] at placed
      rw [Rule.markApply_chars_append, List.append_assoc, placedAfter_chars, List.cons_append,
        PlacedAfter, placedAfter_chars]
      refine ⟨List.suffix_append _ _, by simp, ?_⟩
      simpa [Rule.source] using ih placed
  | miss p rest _ ih =>
      rw [Rule.markApply_cons_of_miss ‹_›]
      cases p with
      | char c => exact ih placed
      | mark r' => exact ⟨placed.1, by simpa using placed.2.1, ih placed.2.2⟩

/-- A prefix of a marked text's reading is the prefix's characters, or it reaches into the
`new` of a mark with only characters before it.
-/
theorem prefix_expandText {u : Text} {pieces : List Piece} (leading : u <+: expandText pieces)
    : u.map .char <+: pieces ∨ ∃ r', .mark r' ∈ pieces ∧ TouchesFrom [] r'.new [] u := by
  induction pieces generalizing u with
  | nil => simp_all
  | cons p rest ih =>
      cases p with
      | char c =>
          rcases List.prefix_cons_iff.mp leading with rfl | ⟨u, rfl, tail⟩
          · simp
          · rcases ih tail with inner | ⟨r', known, touch⟩
            · exact .inl (by simpa using inner)
            · exact .inr ⟨r', List.mem_cons_of_mem _ known, touch.append_left [c]⟩
      | mark r' =>
          rcases u with _ | ⟨c, u⟩
          · simp
          · exact .inr ⟨r', List.mem_cons_self _ _, [], expandText rest, by simp,
              by simpa using leading⟩

/-- The call on a marked text reads as the call on its reading, when the source meets no
mark's `new`.
Witness: induction along the scan of the marked text; a kept character cannot start a match
of the reading, and no match starts inside a mark's `new`.
-/
theorem expandText_markApply {pieces : List Piece}
    (spares : ∀ r', .mark r' ∈ pieces → ¬ Touches [] r'.new [] r.source)
    : expandText (r.markApply pieces) = r.apply (expandText pieces) := by
  induction pieces using replace_induction r.chars_ne_nil with
  | nil => simp
  | hit rest ih =>
      have later := ih (fun r' known => spares r' (List.mem_append_right _ known))
      rw [Rule.markApply_chars_append]
      simp only [expandText_append, expandText_chars, later]
      rw [Rule.apply_source_append]
      simp [Rule.target, Piece.expand]
  | miss p rest miss ih =>
      rw [Rule.markApply_cons_of_miss miss, expandText_cons,
        ih (fun r' known => spares r' (List.mem_cons_of_mem p known)),
        expandText_cons, Rule.apply, Rule.apply]
      cases p with
      | char c =>
          refine (replace_cons_of_miss _ r.source_ne_nil fun matched => ?_).symm
          have reading : r.source <+: expandText (.char c :: rest) := matched
          rcases prefix_expandText reading with chars | ⟨r', known, touch⟩
          · exact miss (by simpa using chars)
          · exact spares r' known (touch.touches r'.new_ne_nil)
      | mark r' =>
          refine (replace_append_of_clear _ r.source_ne_nil _
            fun tail inner nonempty matched => ?_).symm
          obtain ⟨front, split⟩ := inner
          simp only [Piece.expand] at split
          refine spares r' (List.mem_cons_self _ _)
            ⟨[], expandText rest, front.length, ?_, ?_, ?_⟩
          · simpa [← split] using List.length_pos.mpr nonempty
          · have := List.length_pos.mpr r.source_ne_nil
            simp only [List.length_append, List.length_nil]
            omega
          · simpa [← split] using matched

-----------------------------------------------------------------------------------------
-- A chain of calls on a marked text
-----------------------------------------------------------------------------------------

/-- The rules' calls, in order, on a marked text. -/
def markRun (rules : List Rule) (pieces : List Piece) : List Piece :=
  rules.foldl (fun pieces r => r.markApply pieces) pieces

variable {rules : List Rule}

@[simp] theorem plainText_markRun (pieces : List Piece)
    : plainText (markRun rules pieces) = plainText pieces := by
  induction rules generalizing pieces with
  | nil => rfl
  | cons r rules ih => exact (ih _).trans (plainText_markApply pieces)

theorem placedAfter_markRun {front : Text} {pieces : List Piece}
    (placed : PlacedAfter front pieces) : PlacedAfter front (markRun rules pieces) := by
  induction rules generalizing pieces with
  | nil => exact placed
  | cons r rules ih => exact ih (placedAfter_markApply placed)

theorem mem_markRun {r' : Rule} {pieces : List Piece} (found : .mark r' ∈ markRun rules pieces)
    : .mark r' ∈ pieces ∨ r' ∈ rules := by
  induction rules generalizing pieces with
  | nil => exact .inl found
  | cons r rules ih =>
      rcases ih found with earlier | later
      · exact (mem_markApply earlier).imp id (by rintro rfl; exact List.mem_cons_self _ _)
      · exact .inr (List.mem_cons_of_mem r later)

theorem spaced_markRun (written : ∀ r ∈ rules, r.before ≠ [] ∧ r.after ≠ []) {pieces : List Piece}
    (spaced : Spaced pieces) : Spaced (markRun rules pieces) := by
  induction rules generalizing pieces with
  | nil => exact spaced
  | cons r rules ih =>
      obtain ⟨opens, closes⟩ := written r (List.mem_cons_self _ _)
      exact ih (fun r' known => written r' (List.mem_cons_of_mem r known))
        (r.spaced_markApply opens closes spaced)

/-- The run on a marked text reads as the run on its reading, when no rule's source meets
the `new` of a mark already there or of a rule of the run.
-/
theorem expandText_markRun {pieces : List Piece}
    (spares : ∀ r ∈ rules, ∀ r', (.mark r' ∈ pieces ∨ r' ∈ rules) →
      ¬ Touches [] r'.new [] r.source)
    : expandText (markRun rules pieces) = runRules rules (expandText pieces) := by
  induction rules generalizing pieces with
  | nil => rfl
  | cons r rules ih =>
      have first : expandText (r.markApply pieces) = r.apply (expandText pieces) :=
        expandText_markApply fun r' known => spares r (List.mem_cons_self _ _) r' (.inl known)
      rw [runRules_cons, ← first]
      refine ih fun r'' later r' known => spares r'' (List.mem_cons_of_mem r later) r' ?_
      rcases known with known | known
      · exact (mem_markApply known).imp id (by rintro rfl; exact List.mem_cons_self _ _)
      · exact .inr (List.mem_cons_of_mem r known)

/-- A chain of calls whose sources meet nothing the chain writes only inserts: its output is
its input with each rule's `new` placed where that rule's `before` and `after` meet, one rule at
a place when every rule keeps context on both sides.
Witness: run the same rules on the input's characters, marking each replacement.
-/
theorem runRules_marked (rules : List Rule)
    (spares : ∀ r ∈ rules, ∀ r' ∈ rules, ¬ Touches [] r'.new [] r.source)
    (written : ∀ r ∈ rules, r.before ≠ [] ∧ r.after ≠ []) (text : Text)
    : ∃ pieces, plainText pieces = text ∧ expandText pieces = runRules rules text
        ∧ MarksPlaced pieces ∧ MarksApart pieces ∧ ∀ r, .mark r ∈ pieces → r ∈ rules := by
  refine ⟨markRun rules (text.map .char), by simp, ?_, ?_,
    (spaced_markRun written (by simpa using spaced_chars_append text List.chain'_nil)).marksApart,
    fun r found => ?_⟩
  · rw [expandText_markRun, expandText_chars]
    rintro r known r' (chars | listed)
    · simp at chars
    · exact spares r known r' listed
  · exact marksPlaced_iff.mpr (placedAfter_markRun
      (by simpa using (placedAfter_chars [] text []).mpr trivial))
  · exact (mem_markRun found).resolve_left (by simp)

end GridView
