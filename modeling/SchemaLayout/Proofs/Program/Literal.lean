import Mathlib.Algebra.Ring.Nat
import SchemaLayout.Program.Literal
import SchemaLayout.Text.Json.Reader

/-!
# Literals are read back

A literal is read character by character, and what a character means depends on the place it stands at: between two
units, or inside an escape. Every unit is read back from its spelling whatever stands behind it
(`readUnits_literalUnit`), because no spelling ends inside an escape: those of more than one character either have a
fixed length or are ended by a brace. So a program is read back from its literal, also in the midst of a source text,
and inside the quotes nothing can be mistaken for their end (`literal_isFaithful`).
-/

namespace SchemaLayout.Program

/-! ## Reading literals -/

/-- Where the reader of a literal is. -/
inductive LiteralPlace where
  /-- Between two units. -/
  | between
  /-- Behind the backslash of an escape. -/
  | behindBackslash
  /-- Behind the letter of an escape that spells a code. -/
  | behindLetter
  /-- Between the braces, behind some hexadecimal digits of a code. -/
  | insideBraces (length code : Nat)

/-- The character of a code, unless it is above all characters or half of a pair. -/
def scalar? (code : Nat) : Option Char :=
  if code.isValidChar then some (Char.ofNat code) else none

/-- Reads the units up to the quote that ends a literal. There are escapes for zero, for the backslash and for
the quote, and those that spell a code of up to six digits; every other character stands for itself. -/
def readUnits : LiteralPlace → List Char → Option (Program × List Char)
  | _, [] => none
  | .between, c :: rest =>
    if c = '"' then some ([], rest)
    else if c = '\\' then readUnits .behindBackslash rest
    else (readUnits .between rest).map (Prod.map (c :: ·) id)
  | .behindBackslash, c :: rest =>
    if c = '0' then (readUnits .between rest).map (Prod.map ('\x00' :: ·) id)
    else if c = '\\' ∨ c = '"' then (readUnits .between rest).map (Prod.map (c :: ·) id)
    else if c = 'u' then readUnits .behindLetter rest
    else none
  | .behindLetter, c :: rest => if c = '\x7b' then readUnits (.insideBraces 0 0) rest else none
  | .insideBraces length code, c :: rest =>
    if c = '\x7d' then
      if length = 0 then none
      else do
        let unit ← scalar? code
        (readUnits .between rest).map (Prod.map (unit :: ·) id)
    else do
      let digit ← Json.hexValue? c
      if length < 6 then readUnits (.insideBraces (length + 1) (16 * code + digit)) rest else none

/-- Reads a literal from the front of a source text: the program, and the text behind the literal. -/
def readLiteral : List Char → Option (Program × List Char)
  | '"' :: rest => readUnits .between rest
  | _ => none

/-! ## Hexadecimal digits -/

theorem hexValue?_digitChar : ∀ digit < 16, Json.hexValue? digit.digitChar = some digit := by
  decide

theorem exists_digitChar_of_mem {code : Nat} {c : Char} (h : c ∈ Nat.toDigits 16 code) :
    ∃ digit < 16, c = digit.digitChar := by
  induction code using Nat.strongRecOn with
  | ind code ih =>
    by_cases hsmall : code < 16
    · rw [Nat.toDigits_of_lt_base hsmall] at h
      exact ⟨code, hsmall, List.mem_singleton.1 h⟩
    · rw [Nat.toDigits_of_base_le (by omega) (by omega)] at h
      rcases List.mem_append.1 h with hhigh | hlow
      · exact ih (code / 16) (by omega) hhigh
      · exact ⟨code % 16, Nat.mod_lt _ (by omega), List.mem_singleton.1 hlow⟩

theorem readUnits_toDigits {length high code : Nat} {rest : List Char}
    (h : length + (Nat.toDigits 16 code).length ≤ 6) :
    readUnits (.insideBraces length high) (Nat.toDigits 16 code ++ rest) =
      readUnits (.insideBraces (length + (Nat.toDigits 16 code).length)
        (16 ^ (Nat.toDigits 16 code).length * high + code)) rest := by
  -- One digit at a time is shifted in from behind.
  have hstep (length high digit : Nat) (rest : List Char) (hlength : length < 6) (hdigit : digit < 16) :
      readUnits (.insideBraces length high) (digit.digitChar :: rest) =
        readUnits (.insideBraces (length + 1) (16 * high + digit)) rest := by
    have hbrace : ∀ digit < 16, digit.digitChar ≠ '\x7d' := by decide
    rw [readUnits, if_neg (hbrace digit hdigit), hexValue?_digitChar digit hdigit]
    exact if_pos hlength
  induction code using Nat.strongRecOn generalizing rest with
  | ind code ih =>
    by_cases hsmall : code < 16
    · rw [Nat.toDigits_of_lt_base hsmall] at h ⊢
      have hlength : length < 6 := by
        rw [List.length_singleton] at h
        omega
      rw [List.singleton_append, hstep length high code rest hlength hsmall]
      simp
    · -- The last digit is read behind those of the sixteenth part.
      have hdigits : Nat.toDigits 16 code = Nat.toDigits 16 (code / 16) ++ [(code % 16).digitChar] :=
        Nat.toDigits_of_base_le (by omega) (by omega)
      have hcount : (Nat.toDigits 16 code).length = (Nat.toDigits 16 (code / 16)).length + 1 := by
        rw [hdigits, List.length_append, List.length_singleton]
      rw [hcount] at h ⊢
      rw [hdigits, List.append_assoc, ih (code / 16) (by omega) (by omega), List.singleton_append,
        hstep _ _ _ _ (by omega) (Nat.mod_lt _ (by omega))]
      have hvalue : 16 * (16 ^ (Nat.toDigits 16 (code / 16)).length * high + code / 16) + code % 16 =
          16 ^ ((Nat.toDigits 16 (code / 16)).length + 1) * high + code := by
        rw [Nat.pow_succ, Nat.mul_add, Nat.mul_comm _ 16, Nat.mul_assoc]
        omega
      rw [hvalue, Nat.add_assoc]

/-! ## Spellings of units -/

/-- ASCII characters that cannot be printed. -/
def IsControl (c : Char) : Prop :=
  c.toNat < 0x20 ∨ c.toNat = 0x7F

instance (c : Char) : Decidable (IsControl c) :=
  inferInstanceAs (Decidable (c.toNat < 0x20 ∨ c.toNat = 0x7F))

/-- `literalUnit` spells a unit in one of four ways. -/
theorem literalUnit_cases (unit : Char) :
    unit = '\x00' ∧ literalUnit unit = ['\\', '0'] ∨
      (unit = '\\' ∨ unit = '"') ∧ literalUnit unit = ['\\', unit] ∨
      IsControl unit ∧ literalUnit unit = Quoted.codeEscape unit ∨
      (unit ≠ '\\' ∧ unit ≠ '"' ∧ ¬ IsControl unit) ∧ literalUnit unit = [unit] := by
  unfold literalUnit
  by_cases hzero : unit = '\x00'
  · exact Or.inl ⟨hzero, if_pos hzero⟩
  · rw [if_neg hzero]
    by_cases hmark : unit = '\\' ∨ unit = '"'
    · exact Or.inr (Or.inl ⟨hmark, if_pos hmark⟩)
    · rw [if_neg hmark]
      by_cases hcontrol : IsControl unit
      · exact Or.inr (Or.inr (Or.inl ⟨hcontrol, if_pos hcontrol⟩))
      · obtain ⟨hbackslash, hquote⟩ := not_or.1 hmark
        exact Or.inr (Or.inr (Or.inr ⟨⟨hbackslash, hquote, hcontrol⟩, if_neg hcontrol⟩))

/-- `readUnits` reads back a `codeEscape` below `0x80`. -/
theorem readUnits_codeEscape {unit : Char} (h : unit.toNat < 0x80) (rest : List Char) :
    readUnits .between (Quoted.codeEscape unit ++ rest) =
      (readUnits .between rest).map (Prod.map (unit :: ·) id) := by
  have hlength : (Nat.toDigits 16 unit.toNat).length ≤ 6 :=
    (Nat.length_toDigits_le_iff (by omega) (by omega)).2 (Nat.lt_trans h (by decide))
  have hscalar : scalar? unit.toNat = some unit := by
    rw [scalar?, if_pos (Or.inl (by omega)), Char.ofNat_toNat]
  have hdigits : readUnits (.insideBraces 0 0) (Nat.toDigits 16 unit.toNat ++ '\x7d' :: rest) =
      readUnits (.insideBraces (Nat.toDigits 16 unit.toNat).length unit.toNat) ('\x7d' :: rest) := by
    rw [readUnits_toDigits (by omega)]
    simp
  have hfront : readUnits .between (Quoted.codeEscape unit ++ rest) =
      readUnits (.insideBraces 0 0) (Nat.toDigits 16 unit.toNat ++ '\x7d' :: rest) := by
    simp [Quoted.codeEscape, Quoted.hexDigits, readUnits]
  rw [hfront, hdigits, readUnits, if_pos rfl, if_neg (Nat.ne_of_gt Nat.length_toDigits_pos), hscalar]
  rfl

/-- `readUnits` reads back a `literalUnit`, whatever stands behind it. -/
theorem readUnits_literalUnit (unit : Char) (rest : List Char) :
    readUnits .between (literalUnit unit ++ rest) =
      (readUnits .between rest).map (Prod.map (unit :: ·) id) := by
  rcases literalUnit_cases unit with ⟨rfl, hunit⟩ | ⟨hmark, hunit⟩ | ⟨hcontrol, hunit⟩ |
    ⟨⟨hbackslash, hquote, _⟩, hunit⟩
  · rw [hunit]
    rfl
  · rw [hunit]
    rcases hmark with rfl | rfl
    · rfl
    · rfl
  · rw [hunit]
    refine readUnits_codeEscape ?_ rest
    rcases hcontrol with hlow | hdelete
    · omega
    · omega
  · rw [hunit, List.singleton_append, readUnits, if_neg hquote, if_neg hbackslash]

/-- `readUnits` reads back a whole program and stops at the quote. -/
theorem readUnits_flatMap_literalUnit (program : Program) (rest : List Char) :
    readUnits .between (program.flatMap literalUnit ++ '"' :: rest) = some (program, rest) := by
  induction program with
  | nil => rfl
  | cons unit others ih =>
    rw [List.flatMap_cons, List.append_assoc, readUnits_literalUnit, ih]
    rfl

/-- `readLiteral` reads back a `literal`, whatever stands behind it. -/
theorem readLiteral_literal (program : Program) (rest : List Char) :
    readLiteral (literal program ++ rest) = some (program, rest) := by
  have hfront : literal program ++ rest = '"' :: (program.flatMap literalUnit ++ '"' :: rest) := by
    simp [literal]
  rw [hfront]
  exact readUnits_flatMap_literalUnit program rest

/-- A digit or a brace behind an escape is a unit of its own. -/
example : readLiteral (literal ['\x00', '7', '\x01', '\x7d', '\\', '"']) =
    some (['\x00', '7', '\x01', '\x7d', '\\', '"'], []) := by
  decide

/-! ## Inside the quotes -/

theorem mem_codeEscape {unit c : Char} (h : c ∈ Quoted.codeEscape unit) :
    c ∈ ['\\', 'u', '\x7b', '\x7d'] ∨ ∃ digit < 16, c = digit.digitChar := by
  rcases List.mem_append.1 h with hfront | hend
  · rcases List.mem_append.1 hfront with hmark | hdigit
    · exact Or.inl (List.mem_append_left ['\x7d'] hmark)
    · exact Or.inr (exists_digitChar_of_mem hdigit)
  · exact Or.inl (List.mem_append_right ['\\', 'u', '\x7b'] hend)

/-- No character of a `literalUnit` satisfies `IsControl`. -/
theorem not_isControl_of_mem_literalUnit {unit c : Char} (h : c ∈ literalUnit unit) : ¬ IsControl c := by
  rcases literalUnit_cases unit with ⟨_, hunit⟩ | ⟨hmark, hunit⟩ | ⟨_, hunit⟩ | ⟨⟨_, _, hplain⟩, hunit⟩
  · have hall : ∀ c ∈ ['\\', '0'], ¬ IsControl c := by simp [IsControl]
    exact hall c (hunit ▸ h)
  · have hall : ∀ mark ∈ ['\\', '"'], ∀ c ∈ ['\\', mark], ¬ IsControl c := by simp [IsControl]
    exact hall unit (by simpa using hmark) c (hunit ▸ h)
  · have hmarks : ∀ c ∈ ['\\', 'u', '\x7b', '\x7d'], ¬ IsControl c := by simp [IsControl]
    have hdigits : ∀ digit < 16, ¬ IsControl digit.digitChar := by decide
    rcases mem_codeEscape (hunit ▸ h) with hmark | ⟨digit, hdigit, rfl⟩
    · exact hmarks c hmark
    · exact hdigits digit hdigit
  · rw [hunit] at h
    rw [List.mem_singleton.1 h]
    exact hplain

/-- The number of backslashes at the end of a text. -/
def finalBackslashes (text : List Char) : Nat :=
  (text.reverse.takeWhile (· = '\\')).length

/-- What stands behind the text is escaped: `finalBackslashes` is odd, so that the last of them is not escaped
itself. -/
def Escapes (text : List Char) : Prop :=
  finalBackslashes text % 2 = 1

instance (text : List Char) : Decidable (Escapes text) :=
  inferInstanceAs (Decidable (finalBackslashes text % 2 = 1))

theorem finalBackslashes_concat {text : List Char} {c : Char} (h : c ≠ '\\') : finalBackslashes (text ++ [c]) = 0 := by
  rw [finalBackslashes, List.reverse_append, List.reverse_singleton, List.singleton_append,
    List.takeWhile_cons_of_neg (by simpa using h), List.length_nil]

/-- A `literalUnit` escapes nothing behind it. -/
theorem finalBackslashes_literalUnit (unit : Char) : finalBackslashes (literalUnit unit) % 2 = 0 := by
  rcases literalUnit_cases unit with ⟨_, hunit⟩ | ⟨rfl | rfl, hunit⟩ | ⟨_, hunit⟩ | ⟨⟨hbackslash, _⟩, hunit⟩
  · rw [hunit]
    rfl
  · rfl
  · rfl
  · rw [hunit, Quoted.codeEscape, finalBackslashes_concat (by decide)]
  · rw [hunit, ← List.nil_append [unit], finalBackslashes_concat hbackslash]

/-- `Escapes` does not depend on a front that escapes nothing. -/
theorem Escapes.append {front text : List Char} (hfront : finalBackslashes front % 2 = 0) (h : Escapes text) :
    Escapes (front ++ text) := by
  unfold Escapes finalBackslashes at *
  rw [List.reverse_append, List.takeWhile_append]
  split
  · next hall =>
    -- All of the text is backslashes, so those at the end of the front are counted with them.
    rw [List.length_append]
    omega
  · exact h

/-- A quote in a `literalUnit` is behind a backslash. -/
theorem escapes_of_literalUnit_eq {unit : Char} {before after : List Char}
    (h : literalUnit unit = before ++ '"' :: after) : Escapes before := by
  have hmem : '"' ∈ literalUnit unit := by
    rw [h]
    exact List.mem_append_right before List.mem_cons_self
  rcases literalUnit_cases unit with ⟨_, hunit⟩ | ⟨rfl | rfl, hunit⟩ | ⟨_, hunit⟩ | ⟨⟨_, hquote, _⟩, hunit⟩
  · rw [hunit] at hmem
    exact absurd hmem (by decide)
  · exact absurd hmem (by decide)
  · -- The spelling is a backslash and the quote.
    rw [hunit] at h
    match before, h with
    | [], h => simp at h
    | [c], h =>
      obtain ⟨rfl, _⟩ := List.cons.inj h
      rfl
    | _ :: _ :: _, h => simp at h
  · have hdigits : ∀ digit < 16, '"' ≠ digit.digitChar := by decide
    rcases mem_codeEscape (hunit ▸ hmem) with hmark | ⟨digit, hdigit, heq⟩
    · exact absurd hmark (by decide)
    · exact absurd heq (hdigits digit hdigit)
  · rw [hunit] at hmem
    exact absurd (List.mem_singleton.1 hmem).symm hquote

/-- Every quote inside a literal is escaped. -/
theorem escapes_of_flatMap_eq {program : Program} {before after : List Char}
    (h : program.flatMap literalUnit = before ++ '"' :: after) : Escapes before := by
  induction program generalizing before with
  | nil => simp at h
  | cons unit others ih =>
    rw [List.flatMap_cons] at h
    rcases List.append_eq_append_iff.1 h with ⟨text, rfl, hothers⟩ | ⟨back, hunit, hquote⟩
    · exact (ih hothers).append (finalBackslashes_literalUnit unit)
    · cases back with
      | nil =>
        -- The quote would be the first character behind the unit, where nothing escapes it.
        have hnone : Escapes [] := ih hquote.symm
        exact absurd hnone (by decide)
      | cons c back =>
        obtain ⟨rfl, _⟩ := List.cons.inj hquote
        exact escapes_of_literalUnit_eq hunit

/-- `literal program` is a text between quotes without `IsControl` in it, in which `Escapes` holds before every
quote. `readLiteral` reads the program back, whatever stands behind, so `literal` is injective. -/
theorem literal_isFaithful :
    (∀ program, ∃ inside, literal program = '"' :: (inside ++ ['"']) ∧ (∀ c ∈ inside, ¬ IsControl c) ∧
      (∀ before after, inside = before ++ '"' :: after → Escapes before) ∧
      ∀ rest, readLiteral (literal program ++ rest) = some (program, rest)) ∧
    Function.Injective literal := by
  refine ⟨fun program => ⟨program.flatMap literalUnit, rfl, ?_, ?_, readLiteral_literal program⟩, ?_⟩
  · intro c hc
    obtain ⟨unit, _, hunit⟩ := List.mem_flatMap.1 hc
    exact not_isControl_of_mem_literalUnit hunit
  · intro before after h
    exact escapes_of_flatMap_eq h
  · intro first second h
    have hfirst := readLiteral_literal first []
    rw [h, readLiteral_literal second []] at hfirst
    exact (congrArg Prod.fst (Option.some.inj hfirst)).symm

end SchemaLayout.Program
