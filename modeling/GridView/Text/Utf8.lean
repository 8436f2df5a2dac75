import GridView.Text.Replace

/-! Python's UTF-8 codec: `str.encode('utf-8')`, and `bytes.decode('utf-8')` with the strict error
handler, which raises `UnicodeDecodeError` at the first byte that cannot start or continue a
character. Decoding undoes encoding, and bytes that decode are the encoding of what they decode
to, so a view that decodes a body, edits the text and encodes it again changes the bytes only as
it changed the text.
-/

namespace GridView

/-- A Python `bytes` value. -/
abbrev Bytes := List UInt8

-----------------------------------------------------------------------------------------
-- Encoding
-----------------------------------------------------------------------------------------

/-- The UTF-8 bytes of one character, by its code point: one byte below `80`, then two, three
or four, a lead byte and `10xxxxxx` continuation bytes carrying six bits each.
-/
def encodeChar (c : Char) : Bytes :=
  if c.toNat < 0x80 then [UInt8.ofNat c.toNat]
  else if c.toNat < 0x800 then
    [UInt8.ofNat (0xC0 + c.toNat / 0x40), UInt8.ofNat (0x80 + c.toNat % 0x40)]
  else if c.toNat < 0x10000 then
    [UInt8.ofNat (0xE0 + c.toNat / 0x1000), UInt8.ofNat (0x80 + c.toNat / 0x40 % 0x40),
      UInt8.ofNat (0x80 + c.toNat % 0x40)]
  else
    [UInt8.ofNat (0xF0 + c.toNat / 0x40000), UInt8.ofNat (0x80 + c.toNat / 0x1000 % 0x40),
      UInt8.ofNat (0x80 + c.toNat / 0x40 % 0x40), UInt8.ofNat (0x80 + c.toNat % 0x40)]

/-- `text.encode('utf-8')`, which is also how Flask sends a view's `str` body. -/
def encodeUtf8 (text : Text) : Bytes := text.flatMap encodeChar

-----------------------------------------------------------------------------------------
-- Decoding
-----------------------------------------------------------------------------------------

/-- CPython's `IS_CONTINUATION_BYTE`: a byte `80` to `BF`. -/
def isContinuation (b : UInt8) : Bool := 0x80 ≤ b.toNat && b.toNat < 0xC0

/-- Whether `b`, at `pos`, continues the character that began at `begin` with `lead`: a
continuation byte, and for the second byte after `E0`, `ED`, `F0` or `F4` the narrower range that
keeps out overlong forms, surrogates and code points past `10FFFF`.
-/
def continues (begin lead pos : Nat) (b : UInt8) : Bool :=
  isContinuation b &&
    (pos != begin + 1
      || if lead = 0xE0 then 0xA0 ≤ b.toNat else if lead = 0xED then b.toNat < 0xA0
        else if lead = 0xF0 then 0x90 ≤ b.toNat else if lead = 0xF4 then b.toNat < 0x90
        else true)

/-- A `UnicodeDecodeError`: the bytes `start` up to `stop` that it names, and its reason. -/
structure DecodeError where
  start : Nat
  stop : Nat
  reason : Text

/-- The reasons CPython's decoder gives. -/
def invalidStart : Text := "invalid start byte".toList
def invalidContinuation : Text := "invalid continuation byte".toList
def unexpectedEnd : Text := "unexpected end of data".toList

/-- Where the decoder stands between two bytes: at the start of a character, or inside one
that began at `begin` with `lead`, with `left` bytes still to come and the code point read so
far.
-/
inductive DecodeState
  | start
  | inside (begin lead left code : Nat)

/-- CPython's strict UTF-8 decoder, one byte at a time from position `pos`. A lead byte `C2` to
`F4` opens a character of two to four bytes; `80` to `C1` and `F5` to `FF` cannot start one. The
first byte that cannot continue the character ends the decoding with the bytes read so far
named, and the end of the data inside a character is an unexpected end.
-/
def decodeFrom : DecodeState → Nat → Bytes → Except DecodeError Text
  | .start, _, [] => .ok []
  | .inside begin _ _ _, pos, [] => .error ⟨begin, pos, unexpectedEnd⟩
  | .start, pos, b :: rest =>
      let n := b.toNat
      if n < 0x80 then (Char.ofNat n :: ·) <$> decodeFrom .start (pos + 1) rest
      else if n < 0xC2 then .error ⟨pos, pos + 1, invalidStart⟩
      else if n < 0xE0 then decodeFrom (.inside pos n 1 (n - 0xC0)) (pos + 1) rest
      else if n < 0xF0 then decodeFrom (.inside pos n 2 (n - 0xE0)) (pos + 1) rest
      else if n < 0xF5 then decodeFrom (.inside pos n 3 (n - 0xF0)) (pos + 1) rest
      else .error ⟨pos, pos + 1, invalidStart⟩
  | .inside begin lead left code, pos, b :: rest =>
      if continues begin lead pos b then
        let code := code * 0x40 + (b.toNat - 0x80)
        if left = 1 then (Char.ofNat code :: ·) <$> decodeFrom .start (pos + 1) rest
        else decodeFrom (.inside begin lead (left - 1) code) (pos + 1) rest
      else .error ⟨begin, pos, invalidContinuation⟩

/-- A byte as `%02x` writes it. -/
def hexByte (b : UInt8) : Text := [Nat.digitChar (b.toNat / 0x10), Nat.digitChar (b.toNat % 0x10)]

/-- `str(e)` for a `UnicodeDecodeError` of the `utf-8` codec on `data`: one byte is named with
its value, a longer run by its first and last positions.
-/
def DecodeError.message (data : Bytes) (e : DecodeError) : Text :=
  if e.stop = e.start + 1 then
    "'utf-8' codec can't decode byte 0x".toList ++ hexByte (data.getD e.start 0)
      ++ " in position ".toList ++ (toString e.start).toList ++ ": ".toList ++ e.reason
  else
    "'utf-8' codec can't decode bytes in position ".toList ++ (toString e.start).toList
      ++ "-".toList ++ (toString (e.stop - 1)).toList ++ ": ".toList ++ e.reason

/-- `data.decode('utf-8')`, as Werkzeug's `get_data(as_text=True)` also calls it: the text, or
the message of the `UnicodeDecodeError` it raises.
-/
def decodeUtf8 (data : Bytes) : Except Text Text :=
  (decodeFrom .start 0 data).mapError (DecodeError.message data)

example : decodeUtf8 [0xE2, 0x82, 0xAC] = .ok ['€'] := rfl

example : decodeUtf8 [0x61, 0xFF] = .error
    "'utf-8' codec can't decode byte 0xff in position 1: invalid start byte".toList := rfl

example : decodeUtf8 [0xE2, 0x82] = .error
    "'utf-8' codec can't decode bytes in position 0-1: unexpected end of data".toList := rfl

example : decodeUtf8 [0xED, 0xA0, 0x80] = .error
    "'utf-8' codec can't decode byte 0xed in position 0: invalid continuation byte".toList := rfl

-----------------------------------------------------------------------------------------
-- Bytes, code points and the decoder's steps
-----------------------------------------------------------------------------------------

theorem toNat_byte {n : Nat} (small : n < 0x100) : (UInt8.ofNat n).toNat = n :=
  UInt8.toNat_ofNat_of_lt small

theorem toNat_ofNat_char {v : Nat} (valid : v.isValidChar) : (Char.ofNat v).toNat = v := by
  simp [Char.ofNat, valid, Char.ofNatAux, Char.toNat, UInt32.toNat]

section Continuation

variable {begin lead pos : Nat} {b : UInt8}

theorem continuation_of_continues (cont : continues begin lead pos b = true)
    : 0x80 ≤ b.toNat ∧ b.toNat < 0xC0 := by
  simp only [continues, isContinuation, Bool.and_eq_true, decide_eq_true_eq] at cont
  exact cont.1

theorem second_of_continues (cont : continues begin lead (begin + 1) b = true)
    : (lead = 0xE0 → 0xA0 ≤ b.toNat) ∧ (lead = 0xED → b.toNat < 0xA0)
      ∧ (lead = 0xF0 → 0x90 ≤ b.toNat) ∧ (lead = 0xF4 → b.toNat < 0x90) := by
  simp only [continues, bne_self_eq_false, Bool.false_or, Bool.and_eq_true] at cont
  refine ⟨fun e0 => ?_, fun ed => ?_, fun f0 => ?_, fun f4 => ?_⟩ <;> subst_vars <;> simpa using cont.2

theorem continues_later (cont : 0x80 ≤ b.toNat ∧ b.toNat < 0xC0) (later : pos ≠ begin + 1)
    : continues begin lead pos b = true := by
  simp [continues, isContinuation, later, cont.1, cont.2]

theorem continues_second (cont : 0x80 ≤ b.toNat ∧ b.toNat < 0xC0)
    (second : (lead = 0xE0 → 0xA0 ≤ b.toNat) ∧ (lead = 0xED → b.toNat < 0xA0)
      ∧ (lead = 0xF0 → 0x90 ≤ b.toNat) ∧ (lead = 0xF4 → b.toNat < 0x90))
    : continues begin lead (begin + 1) b = true := by
  simp only [continues, isContinuation, cont.1, cont.2, decide_True, Bool.true_and,
    bne_self_eq_false, Bool.false_or]
  split_ifs with e0 ed f0 f4
  · exact decide_eq_true (second.1 e0)
  · exact decide_eq_true (second.2.1 ed)
  · exact decide_eq_true (second.2.2.1 f0)
  · exact decide_eq_true (second.2.2.2 f4)
  · rfl

end Continuation

section Steps

variable {pos : Nat} {b : UInt8} {rest : Bytes}

theorem decodeFrom_ascii (ascii : b.toNat < 0x80)
    : decodeFrom .start pos (b :: rest)
      = (Char.ofNat b.toNat :: ·) <$> decodeFrom .start (pos + 1) rest := by
  rw [decodeFrom, if_pos ascii]

theorem decodeFrom_lead_two (lead : 0xC2 ≤ b.toNat ∧ b.toNat < 0xE0)
    : decodeFrom .start pos (b :: rest)
      = decodeFrom (.inside pos b.toNat 1 (b.toNat - 0xC0)) (pos + 1) rest := by
  rw [decodeFrom, if_neg (by omega), if_neg (by omega), if_pos lead.2]

theorem decodeFrom_lead_three (lead : 0xE0 ≤ b.toNat ∧ b.toNat < 0xF0)
    : decodeFrom .start pos (b :: rest)
      = decodeFrom (.inside pos b.toNat 2 (b.toNat - 0xE0)) (pos + 1) rest := by
  rw [decodeFrom, if_neg (by omega), if_neg (by omega), if_neg (by omega), if_pos lead.2]

theorem decodeFrom_lead_four (lead : 0xF0 ≤ b.toNat ∧ b.toNat < 0xF5)
    : decodeFrom .start pos (b :: rest)
      = decodeFrom (.inside pos b.toNat 3 (b.toNat - 0xF0)) (pos + 1) rest := by
  rw [decodeFrom, if_neg (by omega), if_neg (by omega), if_neg (by omega), if_neg (by omega),
    if_pos lead.2]

variable {begin lead left code : Nat}

theorem decodeFrom_continue (cont : continues begin lead pos b = true) (more : left ≠ 1)
    : decodeFrom (.inside begin lead left code) pos (b :: rest)
      = decodeFrom (.inside begin lead (left - 1) (code * 0x40 + (b.toNat - 0x80))) (pos + 1)
          rest := by
  rw [decodeFrom, if_pos cont, if_neg more]

theorem decodeFrom_finish (cont : continues begin lead pos b = true)
    : decodeFrom (.inside begin lead 1 code) pos (b :: rest)
      = (Char.ofNat (code * 0x40 + (b.toNat - 0x80)) :: ·) <$> decodeFrom .start (pos + 1) rest := by
  rw [decodeFrom, if_pos cont, if_pos rfl]

end Steps

section Classes

variable {c : Char}

theorem encodeChar_one (one : c.toNat < 0x80) : ∃ b₀ : UInt8, encodeChar c = [b₀] ∧ b₀.toNat = c.toNat :=
  ⟨_, if_pos one, toNat_byte (by omega)⟩

theorem encodeChar_two (two : 0x80 ≤ c.toNat ∧ c.toNat < 0x800)
    : ∃ (b₀ b₁ : UInt8) (x₀ x₁ : Nat), encodeChar c = [b₀, b₁]
      ∧ c.toNat = x₀ * 0x40 + x₁ ∧ x₁ < 0x40
      ∧ b₀.toNat = 0xC0 + x₀ ∧ b₁.toNat = 0x80 + x₁ :=
  ⟨_, _, c.toNat / 0x40, c.toNat % 0x40, by rw [encodeChar, if_neg (by omega), if_pos two.2],
    by omega, by omega, toNat_byte (by omega), toNat_byte (by omega)⟩

theorem encodeChar_three (three : 0x800 ≤ c.toNat ∧ c.toNat < 0x10000)
    : ∃ (b₀ b₁ b₂ : UInt8) (x₀ x₁ x₂ : Nat), encodeChar c = [b₀, b₁, b₂]
      ∧ c.toNat = x₀ * 0x1000 + x₁ * 0x40 + x₂ ∧ x₁ < 0x40 ∧ x₂ < 0x40
      ∧ b₀.toNat = 0xE0 + x₀ ∧ b₁.toNat = 0x80 + x₁ ∧ b₂.toNat = 0x80 + x₂ :=
  ⟨_, _, _, c.toNat / 0x1000, c.toNat / 0x40 % 0x40, c.toNat % 0x40,
    by rw [encodeChar, if_neg (by omega), if_neg (by omega), if_pos three.2],
    by omega, by omega, by omega, toNat_byte (by omega), toNat_byte (by omega),
    toNat_byte (by omega)⟩

theorem encodeChar_four (four : 0x10000 ≤ c.toNat)
    : ∃ (b₀ b₁ b₂ b₃ : UInt8) (x₀ x₁ x₂ x₃ : Nat), encodeChar c = [b₀, b₁, b₂, b₃]
      ∧ c.toNat = x₀ * 0x40000 + x₁ * 0x1000 + x₂ * 0x40 + x₃
      ∧ x₁ < 0x40 ∧ x₂ < 0x40 ∧ x₃ < 0x40
      ∧ b₀.toNat = 0xF0 + x₀ ∧ b₁.toNat = 0x80 + x₁ ∧ b₂.toNat = 0x80 + x₂
      ∧ b₃.toNat = 0x80 + x₃ := by
  have valid : c.toNat < 0xD800 ∨ 0xDFFF < c.toNat ∧ c.toNat < 0x110000 := c.valid
  exact ⟨_, _, _, _, c.toNat / 0x40000, c.toNat / 0x1000 % 0x40, c.toNat / 0x40 % 0x40,
    c.toNat % 0x40, by rw [encodeChar, if_neg (by omega), if_neg (by omega), if_neg (by omega)],
    by omega, by omega, by omega, by omega, toNat_byte (by omega), toNat_byte (by omega),
    toNat_byte (by omega), toNat_byte (by omega)⟩

end Classes

/-- Decoding the encoding of a character reads that character back, whatever follows it. -/
theorem decodeFrom_encodeChar (pos : Nat) (c : Char) (rest : Bytes)
    : decodeFrom .start pos (encodeChar c ++ rest)
      = (c :: ·) <$> decodeFrom .start (pos + (encodeChar c).length) rest := by
  have valid : c.toNat < 0xD800 ∨ 0xDFFF < c.toNat ∧ c.toNat < 0x110000 := c.valid
  have back : ∀ v, v = c.toNat → Char.ofNat v = c := fun v same => same ▸ Char.ofNat_toNat c
  by_cases one : c.toNat < 0x80
  · obtain ⟨b₀, bytes, h₀⟩ := encodeChar_one one
    rw [bytes, List.singleton_append, decodeFrom_ascii (by omega), back _ h₀]
    rfl
  by_cases two : c.toNat < 0x800
  · obtain ⟨b₀, b₁, x₀, x₁, bytes, code, r₁, h₀, h₁⟩ := encodeChar_two ⟨by omega, two⟩
    rw [bytes, List.cons_append, List.cons_append, List.nil_append, decodeFrom_lead_two (by omega),
      decodeFrom_finish (continues_second (b := b₁) (by omega) (by omega)), back _ (by omega)]
    rfl
  by_cases three : c.toNat < 0x10000
  · obtain ⟨b₀, b₁, b₂, x₀, x₁, x₂, bytes, code, r₁, r₂, h₀, h₁, h₂⟩ :=
      encodeChar_three ⟨by omega, three⟩
    rw [bytes, List.cons_append, List.cons_append, List.cons_append, List.nil_append,
      decodeFrom_lead_three (by omega),
      decodeFrom_continue (continues_second (b := b₁) (by omega) (by omega)) (by omega),
      decodeFrom_finish (continues_later (b := b₂) (by omega) (by omega)), back _ (by omega)]
    rfl
  · obtain ⟨b₀, b₁, b₂, b₃, x₀, x₁, x₂, x₃, bytes, code, r₁, r₂, r₃, h₀, h₁, h₂, h₃⟩ :=
      encodeChar_four (c := c) (by omega)
    rw [bytes, List.cons_append, List.cons_append, List.cons_append, List.cons_append,
      List.nil_append, decodeFrom_lead_four (by omega),
      decodeFrom_continue (continues_second (b := b₁) (by omega) (by omega)) (by omega),
      decodeFrom_continue (continues_later (b := b₂) (by omega) (by omega)) (by omega),
      decodeFrom_finish (continues_later (b := b₃) (by omega) (by omega)), back _ (by omega)]
    rfl

theorem decodeFrom_encodeUtf8 (pos : Nat) (text : Text)
    : decodeFrom .start pos (encodeUtf8 text) = .ok text := by
  induction text generalizing pos with
  | nil => rfl
  | cons c text ih =>
      rw [encodeUtf8, List.flatMap_cons, decodeFrom_encodeChar, ← encodeUtf8, ih]
      rfl

theorem map_cons_ok {c : Char} {decoded : Except DecodeError Text} {text : Text}
    (mapped : (c :: ·) <$> decoded = .ok text) : ∃ left, decoded = .ok left ∧ text = c :: left := by
  cases decoded with
  | error e => cases mapped
  | ok left => exact ⟨left, rfl, (Except.ok.inj mapped).symm⟩

section Inside

variable {begin lead left code pos : Nat} {text : Text}

theorem continues_of_ok {b : UInt8} {rest : Bytes}
    (decoded : decodeFrom (.inside begin lead left code) pos (b :: rest) = .ok text)
    : continues begin lead pos b = true := by
  by_contra stop
  rw [decodeFrom, if_neg stop] at decoded
  cases decoded

/-- A character cut short by the end of the bytes is an error. -/
theorem decodeFrom_inside_short {rest : Bytes} (short : rest.length < left)
    (decoded : decodeFrom (.inside begin lead left code) pos rest = .ok text) : False := by
  induction rest generalizing left code pos with
  | nil => cases decoded
  | cons b rest ih =>
      rw [List.length_cons] at short
      rw [decodeFrom_continue (continues_of_ok decoded) (by omega)] at decoded
      exact ih (by omega) decoded

end Inside

section Accepted

variable {b b₁ b₂ b₃ : UInt8}

/-- The bytes of a two-byte character the decoder accepts are that character's encoding. -/
theorem encodeChar_accepted_two (lead : 0xC2 ≤ b.toNat ∧ b.toNat < 0xE0)
    (c₁ : 0x80 ≤ b₁.toNat ∧ b₁.toNat < 0xC0)
    : encodeChar (Char.ofNat ((b.toNat - 0xC0) * 0x40 + (b₁.toNat - 0x80))) = [b, b₁] := by
  generalize hv : (b.toNat - 0xC0) * 0x40 + (b₁.toNat - 0x80) = v
  have code : (Char.ofNat v).toNat = v := toNat_ofNat_char (.inl (by omega))
  obtain ⟨d₀, d₁, x₀, x₁, bytes, split, r₁, h₀, h₁⟩ := encodeChar_two (c := Char.ofNat v) (by omega)
  rw [code] at split
  rw [bytes, UInt8.toNat.inj (show d₀.toNat = b.toNat by omega),
    UInt8.toNat.inj (show d₁.toNat = b₁.toNat by omega)]

theorem encodeChar_accepted_three (lead : 0xE0 ≤ b.toNat ∧ b.toNat < 0xF0)
    (c₁ : 0x80 ≤ b₁.toNat ∧ b₁.toNat < 0xC0) (c₂ : 0x80 ≤ b₂.toNat ∧ b₂.toNat < 0xC0)
    (second : (b.toNat = 0xE0 → 0xA0 ≤ b₁.toNat) ∧ (b.toNat = 0xED → b₁.toNat < 0xA0))
    : encodeChar (Char.ofNat (((b.toNat - 0xE0) * 0x40 + (b₁.toNat - 0x80)) * 0x40
        + (b₂.toNat - 0x80))) = [b, b₁, b₂] := by
  generalize hv : ((b.toNat - 0xE0) * 0x40 + (b₁.toNat - 0x80)) * 0x40 + (b₂.toNat - 0x80) = v
  have code : (Char.ofNat v).toNat = v := toNat_ofNat_char (by unfold Nat.isValidChar; omega)
  obtain ⟨d₀, d₁, d₂, x₀, x₁, x₂, bytes, split, r₁, r₂, h₀, h₁, h₂⟩ :=
    encodeChar_three (c := Char.ofNat v) (by omega)
  rw [code] at split
  rw [bytes, UInt8.toNat.inj (show d₀.toNat = b.toNat by omega),
    UInt8.toNat.inj (show d₁.toNat = b₁.toNat by omega),
    UInt8.toNat.inj (show d₂.toNat = b₂.toNat by omega)]

theorem encodeChar_accepted_four (lead : 0xF0 ≤ b.toNat ∧ b.toNat < 0xF5)
    (c₁ : 0x80 ≤ b₁.toNat ∧ b₁.toNat < 0xC0) (c₂ : 0x80 ≤ b₂.toNat ∧ b₂.toNat < 0xC0)
    (c₃ : 0x80 ≤ b₃.toNat ∧ b₃.toNat < 0xC0)
    (second : (b.toNat = 0xF0 → 0x90 ≤ b₁.toNat) ∧ (b.toNat = 0xF4 → b₁.toNat < 0x90))
    : encodeChar (Char.ofNat ((((b.toNat - 0xF0) * 0x40 + (b₁.toNat - 0x80)) * 0x40
        + (b₂.toNat - 0x80)) * 0x40 + (b₃.toNat - 0x80))) = [b, b₁, b₂, b₃] := by
  generalize hv : (((b.toNat - 0xF0) * 0x40 + (b₁.toNat - 0x80)) * 0x40
    + (b₂.toNat - 0x80)) * 0x40 + (b₃.toNat - 0x80) = v
  have code : (Char.ofNat v).toNat = v := toNat_ofNat_char (by unfold Nat.isValidChar; omega)
  obtain ⟨d₀, d₁, d₂, d₃, x₀, x₁, x₂, x₃, bytes, split, r₁, r₂, r₃, h₀, h₁, h₂, h₃⟩ :=
    encodeChar_four (c := Char.ofNat v) (by omega)
  rw [code] at split
  rw [bytes, UInt8.toNat.inj (show d₀.toNat = b.toNat by omega),
    UInt8.toNat.inj (show d₁.toNat = b₁.toNat by omega),
    UInt8.toNat.inj (show d₂.toNat = b₂.toNat by omega),
    UInt8.toNat.inj (show d₃.toNat = b₃.toNat by omega)]

end Accepted

/-- A character read off the front of the bytes, whose bytes there are its encoding. -/
theorem start_ok_of_encodeChar {pos : Nat} {c : Char} {front rest : Bytes} {text : Text}
    (bytes : encodeChar c = front)
    (decoded : (c :: ·) <$> decodeFrom .start (pos + front.length) rest = .ok text)
    : ∃ c' tail left, front ++ rest = encodeChar c' ++ tail ∧ text = c' :: left
      ∧ decodeFrom .start (pos + (encodeChar c').length) tail = .ok left := by
  obtain ⟨left, tail, rfl⟩ := map_cons_ok decoded
  exact ⟨c, rest, left, by rw [bytes], rfl, by rw [bytes]; exact tail⟩

/-- A character the decoder reads off the front of the bytes is encoded by those bytes. -/
theorem decodeFrom_start_ok {pos : Nat} {b : UInt8} {rest : Bytes} {text : Text}
    (decoded : decodeFrom .start pos (b :: rest) = .ok text)
    : ∃ c tail left, b :: rest = encodeChar c ++ tail ∧ text = c :: left
      ∧ decodeFrom .start (pos + (encodeChar c).length) tail = .ok left := by
  by_cases one : b.toNat < 0x80
  · rw [decodeFrom_ascii one] at decoded
    have bytes : encodeChar (Char.ofNat b.toNat) = [b] := by
      obtain ⟨b₀, bytes, h₀⟩ := encodeChar_one (c := Char.ofNat b.toNat)
        (by rw [toNat_ofNat_char (.inl (by omega))]; omega)
      rw [bytes, UInt8.toNat.inj (h₀.trans (toNat_ofNat_char (.inl (by omega))))]
    exact start_ok_of_encodeChar bytes decoded
  by_cases start : b.toNat < 0xC2
  · rw [decodeFrom, if_neg one, if_pos start] at decoded
    cases decoded
  by_cases two : b.toNat < 0xE0
  · rw [decodeFrom_lead_two ⟨by omega, two⟩] at decoded
    rcases rest with _ | ⟨b₁, rest⟩
    · exact (decodeFrom_inside_short (by simp) decoded).elim
    have c₁ := continues_of_ok decoded
    rw [decodeFrom_finish c₁] at decoded
    exact start_ok_of_encodeChar
      (encodeChar_accepted_two ⟨by omega, two⟩ (continuation_of_continues c₁)) decoded
  by_cases three : b.toNat < 0xF0
  · rw [decodeFrom_lead_three ⟨by omega, three⟩] at decoded
    rcases rest with _ | ⟨b₁, _ | ⟨b₂, rest⟩⟩
    · exact (decodeFrom_inside_short (by simp) decoded).elim
    · exact (decodeFrom_inside_short (by simp) decoded).elim
    have c₁ := continues_of_ok decoded
    rw [decodeFrom_continue c₁ (by decide)] at decoded
    have c₂ := continues_of_ok decoded
    rw [decodeFrom_finish c₂] at decoded
    exact start_ok_of_encodeChar (encodeChar_accepted_three ⟨by omega, three⟩
      (continuation_of_continues c₁) (continuation_of_continues c₂)
      ⟨(second_of_continues c₁).1, (second_of_continues c₁).2.1⟩) decoded
  by_cases four : b.toNat < 0xF5
  · rw [decodeFrom_lead_four ⟨by omega, four⟩] at decoded
    rcases rest with _ | ⟨b₁, _ | ⟨b₂, _ | ⟨b₃, rest⟩⟩⟩
    · exact (decodeFrom_inside_short (by simp) decoded).elim
    · exact (decodeFrom_inside_short (by simp) decoded).elim
    · exact (decodeFrom_inside_short (by simp) decoded).elim
    have c₁ := continues_of_ok decoded
    rw [decodeFrom_continue c₁ (by decide)] at decoded
    have c₂ := continues_of_ok decoded
    rw [decodeFrom_continue c₂ (by decide)] at decoded
    have c₃ := continues_of_ok decoded
    rw [decodeFrom_finish c₃] at decoded
    exact start_ok_of_encodeChar (encodeChar_accepted_four ⟨by omega, four⟩
      (continuation_of_continues c₁) (continuation_of_continues c₂) (continuation_of_continues c₃)
      ⟨(second_of_continues c₁).2.2.1, (second_of_continues c₁).2.2.2⟩) decoded
  rw [decodeFrom, if_neg one, if_neg start, if_neg two, if_neg three, if_neg four] at decoded
  cases decoded

/-- Bytes the decoder accepts are the encoding of the text it reads, by induction over the
text, one character off the front at a time.
-/
theorem encodeUtf8_of_decodeFrom {pos : Nat} {data : Bytes} {text : Text}
    (decoded : decodeFrom .start pos data = .ok text) : encodeUtf8 text = data := by
  induction text generalizing pos data with
  | nil =>
      rcases data with _ | ⟨b, rest⟩
      · rfl
      · obtain ⟨c, tail, left, -, split, -⟩ := decodeFrom_start_ok decoded
        cases split
  | cons c text ih =>
      rcases data with _ | ⟨b, rest⟩
      · cases decoded
      · obtain ⟨c', tail, left, bytes, split, later⟩ := decodeFrom_start_ok decoded
        obtain ⟨rfl, rfl⟩ := List.cons.inj split
        rw [bytes, encodeUtf8, List.flatMap_cons, ← encodeUtf8, ih later]

-----------------------------------------------------------------------------------------
-- The codec
-----------------------------------------------------------------------------------------

/-- `text.encode('utf-8').decode('utf-8') == text`, for every text. -/
theorem decodeUtf8_encodeUtf8 (text : Text) : decodeUtf8 (encodeUtf8 text) = .ok text := by
  rw [decodeUtf8, decodeFrom_encodeUtf8]
  rfl

/-- Bytes that decode are the UTF-8 encoding of what they decode to. -/
theorem encodeUtf8_of_decodeUtf8 {data : Bytes} {text : Text} (decoded : decodeUtf8 data = .ok text)
    : encodeUtf8 text = data := by
  cases accepted : decodeFrom .start 0 data with
  | error e => simp [decodeUtf8, accepted, Except.mapError] at decoded
  | ok text' =>
      simp only [decodeUtf8, accepted, Except.mapError, Except.ok.injEq] at decoded
      exact decoded ▸ encodeUtf8_of_decodeFrom accepted

@[simp] theorem encodeUtf8_append (front back : Text)
    : encodeUtf8 (front ++ back) = encodeUtf8 front ++ encodeUtf8 back := List.flatMap_append ..

end GridView
