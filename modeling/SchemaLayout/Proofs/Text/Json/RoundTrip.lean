import Mathlib.Data.List.TakeDrop
import Mathlib.Tactic.IntervalCases
import SchemaLayout.Text.Json.Printer
import SchemaLayout.Text.Json.Reader

/-!
# Reading what was printed

A document in which all numbers are whole is read back from its text, whatever stands behind it, unless that would
lengthen a number (`value_print`). So a text of its own is parsed to the document (`parse_render`).
-/

namespace SchemaLayout.Json

/-! ## Quoted text -/

/-- `hexCode?` inverts `hexDigit` on control characters. -/
theorem hexCode?_hexDigit : ∀ code < 0x20,
    hexCode? '0' '0' (hexDigit (code / 16)) (hexDigit (code % 16)) = some code := by
  decide

/-- `quotedCodes` reads a character that is not escaped as its code. -/
theorem quotedCodes_cons {c : Char} (hquote : c ≠ '"') (hbackslash : c ≠ '\\') (hplain : ¬c.toNat < 0x20)
    (codes : List Nat) (rest : List Char) :
    quotedCodes codes (c :: rest) = quotedCodes (c.toNat :: codes) rest := by
  rw [quotedCodes, if_neg hplain]
  · exact hquote
  · intro _ _ _ _ _ hc
    exact absurd hc hbackslash
  · intro _ _ hc
    exact absurd hc hbackslash

/-- `quotedCodes` reads what `printChar` writes as the code of the character. -/
theorem quotedCodes_printChar (codes : List Nat) (c : Char) (rest : List Char) :
    quotedCodes codes (printChar c rest) = quotedCodes (c.toNat :: codes) rest := by
  unfold printChar
  split
  case h_8 hquote hbackslash _ _ _ _ _ =>
    by_cases hcontrol : c.toNat < 0x20
    · rw [if_pos hcontrol, quotedCodes, hexCode?_hexDigit c.toNat hcontrol]
    · rw [if_neg hcontrol]
      exact quotedCodes_cons hquote hbackslash hcontrol codes rest
  all_goals rfl

theorem quotedCodes_foldr_printChar (codes : List Nat) (cs rest : List Char) :
    quotedCodes codes (cs.foldr printChar ('"' :: rest)) = some (codes.reverse ++ cs.map (·.toNat), rest) := by
  induction cs generalizing codes with
  | nil => simp [quotedCodes]
  | cons c cs ih =>
    rw [List.foldr_cons, quotedCodes_printChar, ih]
    simp

/-- No character has the code of half of a pair. -/
theorem isHalf_toNat (c : Char) : (isHighHalf c.toNat || isLowHalf c.toNat) = false := by
  have hvalid := c.valid
  simp only [isHighHalf, isLowHalf, Bool.or_eq_false_iff, Bool.and_eq_false_iff, decide_eq_false_iff_not]
  have : c.toNat = c.val.toNat := rfl
  rcases hvalid with h | h <;> omega

/-- `joinHalves` inverts the codes of characters. -/
theorem joinHalves_map_toNat (cs : List Char) : joinHalves (cs.map (·.toNat)) = some cs := by
  induction cs with
  | nil => rfl
  | cons c cs ih =>
    obtain ⟨hhigh, hlow⟩ := Bool.or_eq_false_iff.1 (isHalf_toNat c)
    cases cs with
    | nil => simp [joinHalves, hhigh, hlow]
    | cons d ds =>
      simp only [List.map_cons] at ih ⊢
      simp [joinHalves, hhigh, hlow, ih]

/-- `quoted` reads a text back. -/
theorem quoted_foldr_printChar (content : String) (rest : List Char) :
    quoted (content.toList.foldr printChar ('"' :: rest)) = some (some content, rest) := by
  simp [quoted, quotedCodes_foldr_printChar, joinHalves_map_toNat]

/-! ## Numbers -/

/-- The text does not go on with what could lengthen a number. -/
def EndsNumber (rest : List Char) : Prop :=
  ∀ c ∈ rest.head?, isDigit c = false ∧ c ≠ '.' ∧ c ≠ 'e' ∧ c ≠ 'E'

theorem endsNumber_nil : EndsNumber [] :=
  fun c hc => absurd hc (Option.not_mem_none c)

/-- `digitsValue` inverts `Nat.toDigits 10`. -/
theorem digitsValue_toDigits (n : Nat) : digitsValue (Nat.toDigits 10 n) = n := by
  have hvalue (digits : List Char) : digitsValue digits = Nat.ofDigitChars 10 digits 0 := by
    simp only [digitsValue, Nat.ofDigitChars, Nat.mul_comm]
  rw [hvalue, Nat.ofDigitChars_toDigits (by omega) (by omega)]

theorem isDigit_of_mem_toDigits {n : Nat} {c : Char} (h : c ∈ Nat.toDigits 10 n) : isDigit c = true :=
  Nat.isDigit_of_mem_toDigits (by omega) (by omega) h

/-- `digits?` reads all digits of a number, and nothing behind them. -/
theorem digits?_toDigits (n : Nat) {rest : List Char} (h : EndsNumber rest) :
    digits? (Nat.toDigits 10 n ++ rest) = some (Nat.toDigits 10 n, rest) := by
  have hdigits : ∀ c ∈ Nat.toDigits 10 n, isDigit c = true := fun c hc => isDigit_of_mem_toDigits hc
  have hstop : rest.takeWhile isDigit = [] ∧ rest.dropWhile isDigit = rest := by
    cases rest with
    | nil => exact ⟨rfl, rfl⟩
    | cons c rest =>
      have hc := (h c rfl).1
      simp [hc]
  have hspan : (Nat.toDigits 10 n ++ rest).span isDigit = (Nat.toDigits 10 n, rest) := by
    rw [List.span_eq_takeWhile_dropWhile, List.takeWhile_append_of_pos hdigits, List.dropWhile_append_of_pos hdigits,
      hstop.1, hstop.2, List.append_nil]
  rw [digits?, hspan]
  cases hcons : Nat.toDigits 10 n with
  | nil => exact absurd hcons Nat.toDigits_ne_nil
  | cons c cs => rfl

/-- Only the digits of zero start with `'0'`. -/
theorem toDigits_ne_zero_cons {n : Nat} (h : 0 < n) (rest : List Char) : Nat.toDigits 10 n ≠ '0' :: rest := by
  induction n using Nat.strongRecOn generalizing rest with
  | ind n ih =>
    by_cases hsmall : n < 10
    · rw [Nat.toDigits_of_lt_base hsmall]
      interval_cases n <;> simp
    · rw [Nat.toDigits_of_base_le (by omega) (by omega)]
      cases hcons : Nat.toDigits 10 (n / 10) with
      | nil => exact absurd hcons Nat.toDigits_ne_nil
      | cons c cs =>
        intro hzero
        rw [List.cons_append, List.cons.injEq] at hzero
        exact ih (n / 10) (by omega) (by omega) cs (hzero.1 ▸ hcons)

/-- `wholePart?` reads all digits of a number. -/
theorem wholePart?_toDigits (n : Nat) {rest : List Char} (h : EndsNumber rest) :
    wholePart? (Nat.toDigits 10 n ++ rest) = some (Nat.toDigits 10 n, rest) := by
  rcases Nat.eq_zero_or_pos n with rfl | hpos
  · rfl
  · rw [wholePart?, digits?_toDigits n h]
    intro others hzero
    cases hcons : Nat.toDigits 10 n with
    | nil => exact absurd hcons Nat.toDigits_ne_nil
    | cons c cs =>
      rw [hcons, List.cons_append, List.cons.injEq] at hzero
      exact toDigits_ne_zero_cons hpos cs (hzero.1 ▸ hcons)

theorem fraction?_of_endsNumber {rest : List Char} (h : EndsNumber rest) : fraction? rest = some ([], rest) := by
  cases rest with
  | nil => rfl
  | cons c rest =>
    have hc := (h c rfl).2.1
    simp [fraction?, hc]

theorem exponent?_of_endsNumber {rest : List Char} (h : EndsNumber rest) : exponent? rest = some ([], rest) := by
  cases rest with
  | nil => rfl
  | cons c rest =>
    obtain ⟨_, _, he, hE⟩ := h c rfl
    unfold exponent?
    simp [he, hE]

/-- The integer fits in 64 bits, signed or not. -/
def IsWord (n : Int) : Prop :=
  -0x8000000000000000 ≤ n ∧ n ≤ 0xFFFFFFFFFFFFFFFF

/-- `print` of an integer: the sign and the digits. -/
theorem print_int (n : Int) (rest : List Char) :
    print (.int n) rest = (if n < 0 then ['-'] else []) ++ Nat.toDigits 10 n.natAbs ++ rest := by
  rw [print]

theorem exists_toDigits_append (n : Nat) (rest : List Char) :
    ∃ c cs, Nat.toDigits 10 n ++ rest = c :: cs ∧ isDigit c = true := by
  cases hcons : Nat.toDigits 10 n with
  | nil => exact absurd hcons Nat.toDigits_ne_nil
  | cons c cs => exact ⟨c, cs ++ rest, rfl, isDigit_of_mem_toDigits (hcons ▸ List.mem_cons_self)⟩

/-- `number?` inverts `print` on integers with `IsWord`. -/
theorem number?_print_int {n : Int} (hn : IsWord n) {rest : List Char} (h : EndsNumber rest) :
    number? (print (.int n) rest) = some (.int n, rest) := by
  obtain ⟨hlower, hupper⟩ := hn
  by_cases hnegative : n < 0
  · -- A sign allows for one more than the greatest number of 63 bits.
    have hfits : 0 < n.natAbs ∧ n.natAbs ≤ 0x8000000000000000 := by omega
    have hvalue : -(n.natAbs : Int) = n := by omega
    rw [print_int, if_pos hnegative, List.singleton_append, List.cons_append, number?, wholePart?_toDigits _ h]
    simp only [Option.bind_eq_bind, Option.bind_some, fraction?_of_endsNumber h, exponent?_of_endsNumber h,
      numberOf, digitsValue_toDigits]
    simpa [hfits] using hvalue
  · have hfits : n.natAbs ≤ 0xFFFFFFFFFFFFFFFF := by omega
    have hvalue : (n.natAbs : Int) = n := by omega
    rw [print_int, if_neg hnegative, List.nil_append, number?, wholePart?_toDigits _ h]
    · simp only [Option.bind_eq_bind, Option.bind_some, fraction?_of_endsNumber h, exponent?_of_endsNumber h,
        numberOf, digitsValue_toDigits]
      simpa [hfits] using hvalue
    · -- A digit is no sign.
      intro others hminus
      obtain ⟨c, cs, hcons, hdigit⟩ := exists_toDigits_append n.natAbs rest
      rw [hcons, List.cons.injEq] at hminus
      rw [hminus.1] at hdigit
      exact absurd hdigit (by decide)

/-! ## Documents -/

mutual

/-- All numbers in the document are integers with `IsWord`, and all texts can be read. -/
def IsWhole : Json → Prop
  | .null | .bool _ | .text _ => True
  | .int n => IsWord n
  | .real _ | .unreadable => False
  | .array items => IsWholeItems items
  | .object members => IsWholeMembers members

/-- `IsWhole` of each item. -/
def IsWholeItems : List Json → Prop
  | [] => True
  | item :: rest => IsWhole item ∧ IsWholeItems rest

/-- `IsWhole` of each member. -/
def IsWholeMembers : List (String × Json) → Prop
  | [] => True
  | (_, value) :: rest => IsWhole value ∧ IsWholeMembers rest

end

theorem isWholeItems_iff {items : List Json} : IsWholeItems items ↔ ∀ item ∈ items, item.IsWhole := by
  induction items with
  | nil => simp [IsWholeItems]
  | cons item rest ih => rw [IsWholeItems, ih, List.forall_mem_cons]

theorem isWholeMembers_iff {members : List (String × Json)} :
    IsWholeMembers members ↔ ∀ entry ∈ members, entry.2.IsWhole := by
  induction members with
  | nil => simp [IsWholeMembers]
  | cons entry rest ih => rw [IsWholeMembers, ih, List.forall_mem_cons]

mutual

/-- The fuel that `value` takes to read a document. -/
def steps : Json → Nat
  | .array items => stepsOfItems items + 1
  | .object members => stepsOfMembers members + 1
  | _ => 1

/-- The fuel that `items` takes to read the items of an array. -/
def stepsOfItems : List Json → Nat
  | [] => 0
  | item :: rest => steps item + stepsOfItems rest + 1

/-- The fuel that `members` takes to read the members of an object. -/
def stepsOfMembers : List (String × Json) → Nat
  | [] => 0
  | (_, value) :: rest => steps value + stepsOfMembers rest + 1

end

/-! ## Texts are long enough -/

theorem length_lt_printChar (c : Char) (rest : List Char) : rest.length < (printChar c rest).length := by
  unfold printChar
  split
  case h_8 =>
    split
    · simp only [List.length_cons]
      omega
    · simp
  all_goals
    simp only [List.length_cons]
    omega

theorem length_lt_printText (content : String) (rest : List Char) :
    rest.length + 1 < (printText content rest).length := by
  have hfoldr (cs : List Char) : rest.length < (cs.foldr printChar ('"' :: rest)).length := by
    induction cs with
    | nil => simp
    | cons c cs ih => exact Nat.lt_trans ih (length_lt_printChar c _)
  exact Nat.succ_lt_succ (hfoldr content.toList)

mutual

/-- Every one of the `steps` pays for a character. -/
theorem steps_add_length_le (document : Json) (h : document.IsWhole) (rest : List Char) :
    steps document + rest.length ≤ (print document rest).length := by
  match document with
  | .null | .bool true | .bool false | .array [] | .object [] =>
    simp only [print, steps, stepsOfItems, stepsOfMembers, List.length_cons]
    omega
  | .int n =>
    have hdigits : 0 < (Nat.toDigits 10 n.natAbs).length := Nat.length_toDigits_pos
    simp only [print_int, steps, List.length_append]
    omega
  | .text content =>
    have hlength := length_lt_printText content rest
    simp only [print, steps]
    omega
  | .array (item :: others) =>
    have hitem := steps_add_length_le item h.1 (printItems others (']' :: rest))
    have hothers := stepsOfItems_add_length_le others h.2 (']' :: rest)
    simp only [print, steps, stepsOfItems, List.length_cons] at hothers ⊢
    omega
  | .object ((key, item) :: others) =>
    have hkey := length_lt_printText key (':' :: print item (printMembers others ('}' :: rest)))
    have hitem := steps_add_length_le item h.1 (printMembers others ('}' :: rest))
    have hothers := stepsOfMembers_add_length_le others h.2 ('}' :: rest)
    simp only [print, steps, stepsOfMembers, List.length_cons] at hkey hothers ⊢
    omega

/-- `steps_add_length_le` for the items of an array. -/
theorem stepsOfItems_add_length_le (items : List Json) (h : IsWholeItems items) (rest : List Char) :
    stepsOfItems items + rest.length ≤ (printItems items rest).length := by
  match items with
  | [] =>
    simp only [printItems, stepsOfItems]
    omega
  | item :: others =>
    have hitem := steps_add_length_le item h.1 (printItems others rest)
    have hothers := stepsOfItems_add_length_le others h.2 rest
    simp only [printItems, stepsOfItems, List.length_cons]
    omega

/-- `steps_add_length_le` for the members of an object. -/
theorem stepsOfMembers_add_length_le (members : List (String × Json)) (h : IsWholeMembers members)
    (rest : List Char) : stepsOfMembers members + rest.length ≤ (printMembers members rest).length := by
  match members with
  | [] =>
    simp only [printMembers, stepsOfMembers]
    omega
  | (key, item) :: others =>
    have hkey := length_lt_printText key (':' :: print item (printMembers others rest))
    have hitem := steps_add_length_le item h.1 (printMembers others rest)
    have hothers := stepsOfMembers_add_length_le others h.2 rest
    simp only [printMembers, stepsOfMembers, List.length_cons] at hkey ⊢
    omega

end

/-! ## Reading documents -/

/-- `skipBlanks` stops at what is no blank. -/
theorem skipBlanks_cons {c : Char} (h : isBlank c = false) (rest : List Char) :
    skipBlanks (c :: rest) = c :: rest := by
  rw [skipBlanks, List.dropWhile_cons_of_neg (by rw [h]; exact Bool.false_ne_true)]

/-- The first character of a number is no other than `'-'` or a digit. -/
theorem ne_of_number {c other : Char} (h : c = '-' ∨ isDigit c = true)
    (hother : ¬(other = '-' ∨ isDigit other = true)) : c ≠ other := by
  rintro rfl
  exact hother h

theorem isBlank_of_number {c : Char} (h : c = '-' ∨ isDigit c = true) : isBlank c = false := by
  simp only [isBlank, Bool.or_eq_false_iff, beq_eq_false_iff_ne]
  exact ⟨⟨⟨ne_of_number h (by decide), ne_of_number h (by decide)⟩, ne_of_number h (by decide)⟩,
    ne_of_number h (by decide)⟩

/-- `value` is `number?` on what starts with `'-'` or a digit. -/
theorem value_eq_number? {c : Char} (h : c = '-' ∨ isDigit c = true) (fuel : Nat) (cs : List Char) :
    value (fuel + 1) (c :: cs) = number? (c :: cs) := by
  rw [value, skipBlanks_cons (isBlank_of_number h)]
  split
  case h_7 => rfl
  all_goals
    next hcons => exact absurd (List.cons.inj hcons).1 (ne_of_number h (by decide))

/-- A printed integer starts with `'-'` or a digit. -/
theorem exists_print_int (n : Int) (rest : List Char) :
    ∃ c cs, print (.int n) rest = c :: cs ∧ (c = '-' ∨ isDigit c = true) := by
  rw [print_int]
  by_cases hnegative : n < 0
  · rw [if_pos hnegative]
    exact ⟨'-', _, rfl, Or.inl rfl⟩
  · rw [if_neg hnegative]
    obtain ⟨c, cs, hcons, hdigit⟩ := exists_toDigits_append n.natAbs rest
    exact ⟨c, cs, hcons, Or.inr hdigit⟩

/-- A printed document starts neither with a blank nor with `']'`. -/
theorem exists_print_cons {document : Json} (h : document.IsWhole) (rest : List Char) :
    ∃ c cs, print document rest = c :: cs ∧ isBlank c = false ∧ c ≠ ']' := by
  match document with
  | .int n =>
    obtain ⟨c, cs, hcons, hnumber⟩ := exists_print_int n rest
    exact ⟨c, cs, hcons, isBlank_of_number hnumber, ne_of_number hnumber (by decide)⟩
  | .text _ => exact ⟨'"', _, by rw [print, printText], by decide, by decide⟩
  | .null | .bool true | .bool false | .array [] | .array (_ :: _) | .object [] | .object (_ :: _) =>
    exact ⟨_, _, by rw [print], by decide, by decide⟩

theorem endsNumber_printItems (items : List Json) (rest : List Char) :
    EndsNumber (printItems items (']' :: rest)) := by
  cases items <;> rw [printItems] <;> rintro _ ⟨⟩ <;> decide

theorem endsNumber_printMembers (members : List (String × Json)) (rest : List Char) :
    EndsNumber (printMembers members ('}' :: rest)) := by
  cases members <;> rw [printMembers] <;> rintro _ ⟨⟩ <;> decide

/-- `objectOf` makes an object if all keys can be read. -/
theorem objectOf_map (members : List (String × Json)) :
    objectOf (members.map fun entry => (some entry.1, entry.2)) = .object members := by
  have hkeys : (members.map fun entry => (some entry.1, entry.2)).mapM
      (fun (entry : Option String × Json) => entry.1.map (·, entry.2)) = some members := by
    rw [List.mapM_map]
    induction members with
    | nil => rfl
    | cons entry rest ih =>
      rw [List.mapM_cons, ih]
      rfl
  rw [objectOf, hkeys]

/-- `value` goes on with `items` behind the bracket of an array that is not empty. -/
theorem value_array {c : Char} (hblank : isBlank c = false) (hbracket : c ≠ ']') (fuel : Nat) (cs : List Char) :
    value (fuel + 1) ('[' :: c :: cs) = (items fuel (c :: cs)).map fun found => (.array found.1, found.2) := by
  rw [value, skipBlanks_cons (by decide)]
  simp only [skipBlanks_cons hblank]
  split
  · next hcons => exact absurd (List.cons.inj hcons).1 hbracket
  · cases items fuel (c :: cs) <;> rfl

/-- `value` goes on with `members` behind the brace of an object that is not empty. -/
theorem value_object (fuel : Nat) (cs : List Char) :
    value (fuel + 1) ('{' :: '"' :: cs) =
      (members fuel ('"' :: cs)).map fun found => (objectOf found.1, found.2) := by
  rw [value, skipBlanks_cons (by decide)]
  show (members fuel ('"' :: cs) >>= fun found => pure (objectOf found.1, found.2)) = _
  cases members fuel ('"' :: cs) <;> rfl

theorem one_le_steps (document : Json) : 1 ≤ steps document := by
  unfold steps
  split <;> omega

mutual

/-- `value` inverts `print`, up to what stands behind. By induction on the document. -/
theorem value_print (document : Json) (h : document.IsWhole) {rest : List Char} (hrest : EndsNumber rest)
    {fuel : Nat} (hfuel : steps document ≤ fuel) : value fuel (print document rest) = some (document, rest) := by
  cases fuel with
  | zero => exact absurd (one_le_steps document) (by omega)
  | succ fuel =>
    match document with
    | .null | .bool true | .bool false =>
      rw [print, value]
      rfl
    | .int n =>
      obtain ⟨c, cs, hcons, hnumber⟩ := exists_print_int n rest
      rw [hcons, value_eq_number? hnumber, ← hcons]
      exact number?_print_int h hrest
    | .text content =>
      rw [print, printText, value, skipBlanks_cons (by decide)]
      simp only [quoted_foldr_printChar]
      rfl
    | .array [] | .object [] =>
      rw [print, value]
      rfl
    | .array (item :: others) =>
      obtain ⟨hitem, hothers⟩ := h
      obtain ⟨c, cs, hcons, hblank, hbracket⟩ := exists_print_cons hitem (printItems others (']' :: rest))
      have hfuel : stepsOfItems (item :: others) ≤ fuel := Nat.le_of_succ_le_succ hfuel
      rw [print, hcons, value_array hblank hbracket, ← hcons, items_print item others hitem hothers rest hfuel]
      rfl
    | .object ((key, item) :: others) =>
      obtain ⟨hitem, hothers⟩ := h
      have hfuel : stepsOfMembers ((key, item) :: others) ≤ fuel := Nat.le_of_succ_le_succ hfuel
      have hmembers := members_print key item others hitem hothers rest hfuel
      rw [printText] at hmembers
      rw [print, printText, value_object, hmembers, Option.map_some, objectOf_map]
termination_by fuel

/-- `value_print` for the items of an array. -/
theorem items_print (item : Json) (others : List Json) (h : item.IsWhole) (hothers : IsWholeItems others)
    (rest : List Char) {fuel : Nat} (hfuel : stepsOfItems (item :: others) ≤ fuel) :
    items fuel (print item (printItems others (']' :: rest))) = some (item :: others, rest) := by
  rw [stepsOfItems] at hfuel
  cases fuel with
  | zero => exact absurd hfuel (by omega)
  | succ fuel =>
    have hpaid : steps item ≤ fuel := by omega
    rw [items, value_print item h (endsNumber_printItems others rest) hpaid]
    cases others with
    | nil => rfl
    | cons next others =>
      have hpaid : stepsOfItems (next :: others) ≤ fuel := by
        have := one_le_steps item
        omega
      simp only [Option.bind_eq_bind, Option.bind_some, printItems,
        skipBlanks_cons (by decide : isBlank ',' = false), items_print next others hothers.1 hothers.2 rest hpaid]
      rfl
termination_by fuel

/-- `value_print` for the members of an object. -/
theorem members_print (key : String) (item : Json) (others : List (String × Json)) (h : item.IsWhole)
    (hothers : IsWholeMembers others) (rest : List Char) {fuel : Nat}
    (hfuel : stepsOfMembers ((key, item) :: others) ≤ fuel) :
    members fuel (printText key (':' :: print item (printMembers others ('}' :: rest)))) =
      some (((key, item) :: others).map (fun entry => (some entry.1, entry.2)), rest) := by
  rw [stepsOfMembers] at hfuel
  cases fuel with
  | zero => exact absurd hfuel (by omega)
  | succ fuel =>
    have hpaid : steps item ≤ fuel := by omega
    have hitem := value_print item h (endsNumber_printMembers others rest) hpaid
    rw [members, printText, skipBlanks_cons (by decide)]
    simp only [quoted_foldr_printChar, Option.bind_eq_bind, Option.bind_some,
      skipBlanks_cons (by decide : isBlank ':' = false), hitem]
    cases others with
    | nil => rfl
    | cons next others =>
      have hpaid : stepsOfMembers (next :: others) ≤ fuel := by
        have := one_le_steps item
        omega
      simp only [printMembers, skipBlanks_cons (by decide : isBlank ',' = false),
        members_print next.1 next.2 others hothers.1 hothers.2 rest hpaid]
      rfl
termination_by fuel

end

/-- `parse` inverts `render` on documents with `IsWhole`. -/
theorem parse_render {document : Json} (h : document.IsWhole) : parse document.render = some document := by
  have hsteps : steps document ≤ (print document []).length + 1 := by
    have hlength := steps_add_length_le document h []
    rw [List.length_nil] at hlength
    omega
  have hvalue := value_print document h endsNumber_nil hsteps
  rw [parse, render, String.toList_ofList, hvalue]
  rfl

end SchemaLayout.Json
