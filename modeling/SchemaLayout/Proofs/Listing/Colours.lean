import Mathlib.Algebra.Ring.Nat
import SchemaLayout.Listing.Plan
import SchemaLayout.Proofs.Data.List

/-!
# Listings in colour

Without its colour codes, a listing in colour should be the listing without colour. Codes around a padded text
make no difference, but codes inside of it count as characters of its column. The column of presences has such
codes: the mark of a field whose being set is not tracked is dimmed before it is padded. So the rows in which
something follows that mark are eight blanks too short in colour, and a listing without such rows is the same in
colour (`uncoloured_plan_iff`).
-/

namespace SchemaLayout

/-! ## Texts without codes -/

/-- The codes of a palette. -/
def Palette.codes (palette : Palette) : List (List Char) :=
  [palette.blue, palette.green, palette.dim, palette.reset].map String.toList

/-- A text without the codes of `Palette.colored`. -/
def withoutCodes : List Char → List Char
  | [] => []
  | unit :: rest =>
    match Palette.colored.codes.find? (·.isPrefixOf (unit :: rest)) with
    | some code => withoutCodes (rest.drop (code.length - 1))
    | none => unit :: withoutCodes rest
termination_by text => text.length
decreasing_by all_goals simp only [List.length_drop, List.length_cons]; omega

/-- A listing without the codes of `Palette.colored`. -/
def uncoloured (text : String) : String :=
  String.ofList (withoutCodes text.toList)

/-- The text has no `'\x1b'`, which starts a code. -/
def IsCodeFree (text : String) : Prop :=
  '\x1b' ∉ text.toList

instance (text : String) : Decidable (IsCodeFree text) :=
  inferInstanceAs (Decidable ('\x1b' ∉ text.toList))

/-- The codes of `Palette.colored`, unit by unit. -/
theorem codes_colored : Palette.colored.codes = [['\x1b', '[', '3', '4', 'm'], ['\x1b', '[', '3', '2', 'm'],
    ['\x1b', '[', '2', 'm'], ['\x1b', '[', '0', 'm']] := by
  simp [Palette.codes, Palette.colored]

/-- No code is the front of another one, so every code is found as itself. -/
theorem find?_codes_append {code : List Char} (h : code ∈ Palette.colored.codes) (rest : List Char) :
    Palette.colored.codes.find? (·.isPrefixOf (code ++ rest)) = some code := by
  rw [codes_colored] at h ⊢
  simp only [List.mem_cons, List.not_mem_nil, or_false] at h
  rcases h with rfl | rfl | rfl | rfl <;> rfl

/-- `withoutCodes` drops a code in front. -/
theorem withoutCodes_append_of_mem {code : List Char} (h : code ∈ Palette.colored.codes) (rest : List Char) :
    withoutCodes (code ++ rest) = withoutCodes rest := by
  have hfind := find?_codes_append h rest
  have hne : code ≠ [] := by
    rintro rfl
    revert h
    decide
  cases code with
  | nil => exact absurd rfl hne
  | cons unit others =>
    rw [List.cons_append] at hfind ⊢
    rw [withoutCodes, hfind]
    simp

/-- `withoutCodes` keeps any unit but `'\x1b'`. -/
theorem withoutCodes_cons_of_ne {unit : Char} (h : unit ≠ '\x1b') (rest : List Char) :
    withoutCodes (unit :: rest) = unit :: withoutCodes rest := by
  have hnone : Palette.colored.codes.find? (·.isPrefixOf (unit :: rest)) = none := by
    simp [codes_colored, h.symm]
  rw [withoutCodes, hnone]

/-- `withoutCodes` leaves `visible` of `text`, whatever comes behind it. -/
def Shows (text visible : String) : Prop :=
  ∀ rest, withoutCodes (text.toList ++ rest) = visible.toList ++ withoutCodes rest

namespace Shows

variable {text visible other seen : String}

/-- `uncoloured` of a text is what it `Shows`. -/
theorem uncoloured_eq (h : Shows text visible) : uncoloured text = visible := by
  have hall := h []
  rw [List.append_nil, withoutCodes, List.append_nil] at hall
  rw [uncoloured, hall, String.ofList_toList]

/-- `Shows` goes through `++`. -/
theorem append (h : Shows text visible) (hother : Shows other seen) : Shows (text ++ other) (visible ++ seen) := by
  intro rest
  rw [String.toList_append, String.toList_append, List.append_assoc, List.append_assoc, h, hother]

/-- A text with `IsCodeFree` shows all of itself. -/
theorem of_isCodeFree (h : IsCodeFree text) : Shows text text := by
  intro rest
  unfold IsCodeFree at h
  generalize text.toList = units at h
  induction units with
  | nil => rfl
  | cons unit units ih =>
    obtain ⟨hunit, hunits⟩ := not_or.1 (mt List.mem_cons.2 h)
    rw [List.cons_append, withoutCodes_cons_of_ne (Ne.symm hunit), ih hunits, List.cons_append]

/-- Nothing of a code is visible. -/
theorem of_mem_codes (h : text.toList ∈ Palette.colored.codes) : Shows text "" :=
  fun rest => withoutCodes_append_of_mem h rest

/-- `dimmed` in colour shows as `dimmed` without. -/
theorem dimmed (h : Shows text visible) : Shows (Palette.colored.dimmed text) (Palette.plain.dimmed visible) :=
  ((of_mem_codes (by decide)).append h).append (of_mem_codes (by decide))

/-- `heading` in colour shows as `heading` without. -/
theorem heading (h : Shows text visible) : Shows (Palette.colored.heading text) (Palette.plain.heading visible) :=
  ((of_mem_codes (by decide)).append h).append (of_mem_codes (by decide))

end Shows

namespace Listing

/-! ## Columns -/

/-- `leftAligned` fills up with blanks. -/
theorem toList_leftAligned (width : Nat) (text : String) :
    (leftAligned width text).toList = text.toList ++ List.replicate (width - text.length) ' ' := by
  have hpushn (count : Nat) : ("".pushn ' ' count).toList = List.replicate count ' ' := by
    induction count with
    | zero => rfl
    | succ count ih =>
      rw [List.replicate_succ', ← ih]
      exact String.toList_push _
  rw [leftAligned, String.toList_append, hpushn]

/-- The text ends, and not with a blank. -/
def IsInked (text : String) : Prop :=
  text.toList.getLast?.any (· ≠ ' ') = true

instance (text : String) : Decidable (IsInked text) :=
  inferInstanceAs (Decidable (text.toList.getLast?.any (· ≠ ' ') = true))

/-- `IsInked` in terms of the last unit. -/
theorem isInked_iff {text : String} : IsInked text ↔ ∃ front last, text.toList = front ++ [last] ∧ last ≠ ' ' := by
  simp only [IsInked, Option.any_eq_true, decide_eq_true_eq, List.getLast?_eq_some_iff]
  constructor
  · rintro ⟨last, ⟨front, htext⟩, hlast⟩
    exact ⟨front, last, htext, hlast⟩
  · rintro ⟨front, last, htext, hlast⟩
    exact ⟨last, ⟨front, htext⟩, hlast⟩

theorem IsInked.append {text : String} (h : IsInked text) (before : String) : IsInked (before ++ text) := by
  obtain ⟨front, last, htext, hlast⟩ := isInked_iff.1 h
  exact isInked_iff.2
    ⟨before.toList ++ front, last, by rw [String.toList_append, htext, List.append_assoc], hlast⟩

/-- `trimmedEnd` takes away what `leftAligned` filled up in the last column. -/
theorem trimmedEnd_append_leftAligned {text : String} (h : IsInked text) (before : String) (width : Nat) :
    trimmedEnd (before ++ leftAligned width text) = before ++ text := by
  obtain ⟨front, last, htext, hlast⟩ := isInked_iff.1 (h.append before)
  have hblanks : ∀ c ∈ List.replicate (width - text.length) ' ', decide (c = ' ') = true := by
    intro c hc
    exact decide_eq_true (List.eq_of_mem_replicate hc)
  rw [trimmedEnd, String.toList_append, toList_leftAligned, ← List.append_assoc, ← String.toList_append, htext,
    List.reverse_append, List.reverse_replicate, List.dropWhile_append_of_pos hblanks, List.reverse_append,
    List.reverse_singleton, List.singleton_append, List.dropWhile_cons_of_neg (by simpa using hlast),
    List.reverse_cons, List.reverse_reverse, ← htext, String.ofList_toList]

/-- `trimmedEnd` leaves a text with `IsInked`. -/
theorem trimmedEnd_of_isInked {text : String} (h : IsInked text) : trimmedEnd text = text := by
  have hall : leftAligned 0 text = text := by
    rw [leftAligned, Nat.zero_sub]
    exact String.append_empty
  simpa [hall] using trimmedEnd_append_leftAligned h "" 0

/-! ## Texts of a row -/

theorem toList_toString (number : Nat) : (toString number).toList = Nat.toDigits 10 number :=
  String.toList_ofList

/-- Numbers are written in digits. -/
theorem isDigit_of_mem_toString {number : Nat} {c : Char} (h : c ∈ (toString number).toList) : c.isDigit = true := by
  rw [toList_toString] at h
  exact Nat.isDigit_of_mem_toDigits (by omega) (by omega) h

theorem isCodeFree_toString (number : Nat) : IsCodeFree (toString number) :=
  fun h => absurd (isDigit_of_mem_toString h) (by decide)

theorem isInked_toString (number : Nat) : IsInked (toString number) := by
  have hne : (toString number).toList ≠ [] := by
    rw [toList_toString]
    exact Nat.toDigits_ne_nil
  -- The last character is a digit, and a blank is none.
  refine isInked_iff.2 ⟨_, _, (List.dropLast_concat_getLast hne).symm, fun hblank => ?_⟩
  have hdigit := isDigit_of_mem_toString (List.getLast_mem hne)
  rw [hblank] at hdigit
  exact absurd hdigit (by decide)

theorem isCodeFree_append {first second : String} (hfirst : IsCodeFree first) (hsecond : IsCodeFree second) :
    IsCodeFree (first ++ second) := by
  rw [IsCodeFree, String.toList_append, List.mem_append]
  exact not_or.2 ⟨hfirst, hsecond⟩

theorem isCodeFree_leftAligned {text : String} (h : IsCodeFree text) (width : Nat) :
    IsCodeFree (leftAligned width text) := by
  rw [IsCodeFree, toList_leftAligned, List.mem_append]
  exact not_or.2 ⟨h, fun hblank => absurd (List.eq_of_mem_replicate hblank) (by decide)⟩

/-- The `display` of a presence has no codes. -/
theorem isCodeFree_display (presence : Presence) : IsCodeFree presence.display := by
  cases presence with
  | none => decide
  | hasBit index => exact isCodeFree_append (by decide) (isCodeFree_toString index)
  | oneofSlot offset => exact isCodeFree_append (by decide) (isCodeFree_toString offset)

/-- The `display` of a presence does not end with a blank. -/
theorem isInked_display (presence : Presence) : IsInked presence.display := by
  cases presence with
  | none => decide
  | hasBit index => exact (isInked_toString index).append _
  | oneofSlot offset => exact (isInked_toString offset).append _

theorem isCodeFree_keyword (type : FieldType) : IsCodeFree type.keyword := by
  cases type <;> decide

/-- The words for a mode in a row. -/
def modeText (mode : FieldMode) : String :=
  String.intercalate " " (modeWords mode)

theorem isCodeFree_modeText (mode : FieldMode) : IsCodeFree (modeText mode) := by
  obtain ⟨cardinality, isPacked, isExtension⟩ := mode
  cases cardinality <;> cases isPacked <;> cases isExtension <;> decide

/-- `modeText` does not end with a blank if there are `modeWords`. -/
theorem isInked_modeText {mode : FieldMode} (h : modeWords mode ≠ []) : IsInked (modeText mode) := by
  obtain ⟨cardinality, isPacked, isExtension⟩ := mode
  revert h
  cases cardinality <;> cases isPacked <;> cases isExtension <;> decide

/-! ## Rows -/

section

variable (palette : Palette) (numberWidth offsetWidth : Nat) (record : FieldRecord)

/-- What stands in a row before the presence of the field. -/
def rowFront : String :=
  "#" ++ leftAligned numberWidth (toString record.number)
  ++ "  " ++ palette.dimmed ("@" ++ leftAligned offsetWidth (toString record.offset))
  ++ "  " ++ leftAligned 8 record.type.keyword ++ "  "

/-- The presence of the field in a row, dimmed if it is `.none`. -/
def presenceText : String :=
  if record.presence = .none then palette.dimmed record.presence.display else record.presence.display

/-- What stands in a row behind the presence of the field. -/
def rowBack : String :=
  (if record.submessage = 0 then "" else "  M" ++ toString record.submessage)
  ++ (if modeWords record.mode = [] then "" else "  " ++ palette.dimmed (modeText record.mode))

/-- The field has a submessage, or a mode that has words. -/
def hasBack : Bool :=
  record.submessage ≠ 0 || modeWords record.mode ≠ []

/-- Something stands behind the mark of a field with presence `.none`. -/
def isShifted : Bool :=
  record.presence = .none && hasBack record

/-- `recordRow` is `trimmedEnd` of front, presence column and back. -/
theorem recordRow_eq_trimmedEnd : recordRow palette numberWidth offsetWidth record =
    trimmedEnd (rowFront palette numberWidth offsetWidth record
      ++ leftAligned 12 (presenceText palette record) ++ rowBack palette record) := by
  simp only [recordRow, rowFront, presenceText, rowBack, modeText, String.append_assoc]

end

section

variable {palette : Palette} (hpalette : ∀ text, IsInked text → IsInked (palette.dimmed text))
  (numberWidth offsetWidth : Nat) (record : FieldRecord)

include hpalette

theorem isInked_presenceText : IsInked (presenceText palette record) := by
  rw [presenceText]
  split
  · exact hpalette _ (isInked_display record.presence)
  · exact isInked_display record.presence

/-- `rowBack` does not end with a blank if it `hasBack`. -/
theorem isInked_rowBack (h : hasBack record = true) : IsInked (rowBack palette record) := by
  rw [rowBack]
  by_cases hwords : modeWords record.mode = []
  · have hsubmessage : record.submessage ≠ 0 := by simpa [hasBack, hwords] using h
    rw [if_neg hsubmessage, if_pos hwords, String.append_empty]
    exact (isInked_toString record.submessage).append _
  · rw [if_neg hwords]
    exact ((hpalette _ (isInked_modeText hwords)).append _).append _

/-- If the record `hasBack`, the column of its presence is filled up. -/
theorem recordRow_of_hasBack (h : hasBack record = true) : recordRow palette numberWidth offsetWidth record =
    rowFront palette numberWidth offsetWidth record ++ leftAligned 12 (presenceText palette record)
      ++ rowBack palette record := by
  rw [recordRow_eq_trimmedEnd]
  exact trimmedEnd_of_isInked ((isInked_rowBack hpalette record h).append _)

/-- If nothing stands behind the presence, it ends the row. -/
theorem recordRow_of_not_hasBack (h : hasBack record = false) :
    recordRow palette numberWidth offsetWidth record =
      rowFront palette numberWidth offsetWidth record ++ presenceText palette record := by
  have hback : rowBack palette record = "" := by
    simp only [hasBack, Bool.or_eq_false_iff, decide_eq_false_iff_not, not_not] at h
    rw [rowBack, if_pos h.1, if_pos h.2, String.append_empty]
  rw [recordRow_eq_trimmedEnd, hback, String.append_empty]
  exact trimmedEnd_append_leftAligned (isInked_presenceText hpalette record) _ 12

end

theorem isInked_dimmed_plain (text : String) (h : IsInked text) : IsInked (Palette.plain.dimmed text) := by
  simpa [Palette.dimmed, Palette.plain] using h

/-- The code behind a dimmed text is no blank. -/
theorem isInked_dimmed_colored (text : String) (_ : IsInked text) : IsInked (Palette.colored.dimmed text) :=
  IsInked.append (by decide) _

section

variable (numberWidth offsetWidth : Nat) (record : FieldRecord)

/-- `rowFront` in colour shows as without. -/
theorem shows_rowFront : Shows (rowFront .colored numberWidth offsetWidth record)
    (rowFront .plain numberWidth offsetWidth record) := by
  have hnumber := isCodeFree_append (by decide : IsCodeFree "#")
    (isCodeFree_leftAligned (isCodeFree_toString record.number) numberWidth)
  have hoffset := isCodeFree_append (by decide : IsCodeFree "@")
    (isCodeFree_leftAligned (isCodeFree_toString record.offset) offsetWidth)
  have htype := isCodeFree_leftAligned (isCodeFree_keyword record.type) 8
  have hblanks : Shows "  " "  " := .of_isCodeFree (by decide)
  exact (((((Shows.of_isCodeFree hnumber).append hblanks).append (Shows.of_isCodeFree hoffset).dimmed).append
    hblanks).append (.of_isCodeFree htype)).append hblanks

theorem shows_presenceText : Shows (presenceText .colored record) (presenceText .plain record) := by
  have hdisplay := Shows.of_isCodeFree (isCodeFree_display record.presence)
  rw [presenceText, presenceText]
  split
  · exact hdisplay.dimmed
  · exact hdisplay

/-- `rowBack` in colour shows as without. -/
theorem shows_rowBack : Shows (rowBack .colored record) (rowBack .plain record) := by
  refine Shows.append (.of_isCodeFree ?_) ?_
  · split
    · decide
    · exact isCodeFree_append (by decide) (isCodeFree_toString record.submessage)
  · split
    · exact .of_isCodeFree (by decide)
    · exact (Shows.of_isCodeFree (by decide)).append (Shows.of_isCodeFree (isCodeFree_modeText record.mode)).dimmed

/-- The row of a field as it shows in colour: if it `isShifted`, the eight characters of its codes take the
place of as many blanks. -/
def shownRow : String :=
  if isShifted record then
    rowFront .plain numberWidth offsetWidth record ++ leftAligned 4 Presence.none.display ++ rowBack .plain record
  else recordRow .plain numberWidth offsetWidth record

/-- `recordRow` in colour shows as `shownRow`. -/
theorem shows_recordRow :
    Shows (recordRow .colored numberWidth offsetWidth record) (shownRow numberWidth offsetWidth record) := by
  have hfront := shows_rowFront numberWidth offsetWidth record
  cases hback : hasBack record with
  | false =>
    -- The presence ends the row, so its column is not filled up at all.
    rw [shownRow, if_neg (by simp [isShifted, hback]), recordRow_of_not_hasBack isInked_dimmed_colored _ _ _ hback,
      recordRow_of_not_hasBack isInked_dimmed_plain _ _ _ hback]
    exact hfront.append (shows_presenceText record)
  | true =>
    rw [shownRow, recordRow_of_hasBack isInked_dimmed_colored _ _ _ hback,
      recordRow_of_hasBack isInked_dimmed_plain _ _ _ hback]
    by_cases hpresence : record.presence = .none
    · rw [if_pos (by simp [isShifted, hback, hpresence])]
      refine (hfront.append ?_).append (shows_rowBack record)
      -- With its codes the mark has nine characters, so three blanks fill up the column.
      have hcolored : leftAligned 12 (Palette.colored.dimmed Presence.none.display) =
          Palette.colored.dimmed "-" ++ "   " := by decide
      have hplain : leftAligned 4 Presence.none.display = Palette.plain.dimmed "-" ++ "   " := by decide
      rw [presenceText, if_pos hpresence, hpresence, hcolored, hplain]
      exact (Shows.of_isCodeFree (by decide)).dimmed.append (.of_isCodeFree (by decide))
    · rw [if_neg (by simp [isShifted, hpresence])]
      refine (hfront.append ?_).append (shows_rowBack record)
      rw [presenceText, if_neg hpresence, presenceText, if_neg hpresence]
      exact .of_isCodeFree (isCodeFree_leftAligned (isCodeFree_display record.presence) 12)

/-- `shownRow` is eight blanks shorter than `recordRow` if it `isShifted`. -/
theorem length_shownRow : (shownRow numberWidth offsetWidth record).length
      + (if isShifted record then 8 else 0) = (recordRow .plain numberWidth offsetWidth record).length := by
  rw [shownRow]
  split
  · next hshifted =>
    obtain ⟨hpresence, hback⟩ := Bool.and_eq_true_iff.1 hshifted
    have hnone := of_decide_eq_true hpresence
    have hnarrow : (leftAligned 4 Presence.none.display).length = 4 := by decide
    have hwide : (leftAligned 12 (Palette.plain.dimmed Presence.none.display)).length = 12 := by decide
    rw [recordRow_of_hasBack isInked_dimmed_plain _ _ _ hback, presenceText, if_pos hnone, hnone,
      String.length_append, String.length_append, String.length_append, String.length_append, hnarrow, hwide]
    omega
  · rw [Nat.add_zero]

end

/-! ## Listings -/

/-- `lines` show line by line. -/
theorem shows_lines {texts visible : List String} (h : List.Forall₂ Shows texts visible) :
    Shows (lines texts) (lines visible) := by
  rw [lines, lines]
  induction h with
  | nil => exact .of_isCodeFree (by decide)
  | cons htext _ ih =>
    rw [List.map_cons, List.map_cons, String.join_cons, String.join_cons]
    exact (htext.append (.of_isCodeFree (by decide))).append ih

/-- `lines` take one unit more than each text. -/
theorem length_lines (texts : List String) : (lines texts).length = (texts.map fun text => text.length + 1).sum := by
  rw [lines]
  induction texts with
  | nil => rfl
  | cons text rest ih =>
    rw [List.map_cons, String.join_cons, String.length_append, ih, String.length_append, List.map_cons, List.sum_cons]
    rfl

theorem lines_append (first second : List String) : lines (first ++ second) = lines first ++ lines second := by
  rw [lines, List.map_append, String.join_append, lines, lines]

theorem forall₂_shows_headLines (layout : LayoutPlan) :
    List.Forall₂ Shows (headLines .colored layout) (headLines .plain layout) := by
  have hheading {text : String} (h : IsCodeFree text) := (Shows.of_isCodeFree h).heading
  have hcount {label : String} (h : IsCodeFree label) (number : Nat) : Shows (label ++ toString number) _ :=
    .of_isCodeFree (isCodeFree_append h (isCodeFree_toString number))
  refine List.rel_append ?_ ?_
  · exact .cons (hheading (by decide)) (.cons (hcount (by decide) layout.size)
      (.cons (hcount (by decide) layout.records.length) (.cons (hcount (by decide) layout.requiredCount)
        (.cons (hcount (by decide) layout.explicitCount) (.cons (hcount (by decide) layout.denseBelow) .nil)))))
  · split
    · exact .nil
    · exact .cons (.of_isCodeFree (by decide)) (.cons (hheading (by decide)) .nil)

/-- A listing in colour shows `headLines` and a `shownRow` for each record. -/
theorem shows_plan (layout : LayoutPlan) : Shows (plan .colored layout) (lines (headLines .plain layout
    ++ layout.records.map (shownRow (numberWidth layout) (offsetWidth layout)))) := by
  rw [plan]
  refine shows_lines (List.rel_append (forall₂_shows_headLines layout) ?_)
  rw [List.forall₂_map_left_iff, List.forall₂_map_right_iff, List.forall₂_same]
  exact fun record _ => shows_recordRow _ _ record

/-- Each row that `isShifted` is eight blanks shorter. -/
theorem length_lines_shownRow (numberWidth offsetWidth : Nat) (records : List FieldRecord) :
    (lines (records.map (shownRow numberWidth offsetWidth))).length + 8 * records.countP isShifted =
      (lines (records.map (recordRow .plain numberWidth offsetWidth))).length := by
  rw [length_lines, length_lines]
  induction records with
  | nil => rfl
  | cons record rest ih =>
    have hrow := length_shownRow numberWidth offsetWidth record
    rw [List.map_cons, List.map_cons, List.sum_cons, List.map_cons, List.map_cons, List.sum_cons, List.countP_cons]
    by_cases hshifted : isShifted record = true
    · rw [if_pos hshifted] at hrow ⊢
      omega
    · rw [if_neg hshifted] at hrow ⊢
      omega

/-- `uncoloured` of a listing in colour is eight blanks shorter for each record that `isShifted`, and equal to
the listing without colour exactly if there is none. -/
theorem uncoloured_plan_iff (layout : LayoutPlan) :
    (uncoloured (plan .colored layout)).length + 8 * layout.records.countP isShifted
        = (plan .plain layout).length ∧
      (uncoloured (plan .colored layout) = plan .plain layout ↔
        ∀ record ∈ layout.records, isShifted record = false) := by
  -- Header and footer show as they are, so only the rows make a difference.
  have hlength : (uncoloured (plan .colored layout)).length + 8 * layout.records.countP isShifted
      = (plan .plain layout).length := by
    have hrows := length_lines_shownRow (numberWidth layout) (offsetWidth layout) layout.records
    rw [(shows_plan layout).uncoloured_eq, plan, lines_append, lines_append, String.length_append,
      String.length_append]
    omega
  refine ⟨hlength, ?_⟩
  constructor
  · intro hsame record hrecord
    rw [hsame] at hlength
    have hnone : layout.records.countP isShifted = 0 := by omega
    simpa using List.countP_eq_zero.1 hnone record hrecord
  · intro hnone
    have hrows : layout.records.map (shownRow (numberWidth layout) (offsetWidth layout)) =
        layout.records.map (recordRow .plain (numberWidth layout) (offsetWidth layout)) := by
      refine List.map_congr_left fun record hrecord => ?_
      rw [shownRow, if_neg (by simp [hnone record hrecord])]
    rw [(shows_plan layout).uncoloured_eq, plan, hrows]

/-- Some readings, of which it is not tracked whether there are any, so that their mode stands behind the mark
for that. -/
def readingsPlan : LayoutPlan where
  size := 12
  explicitCount := 1
  denseBelow := 3
  records := [
    { number := 1, mode := { cardinality := .array }, offset := 4, presence := .none, submessage := 0, type := .int32 },
    { number := 2, mode := {}, offset := 8, presence := .hasBit 0, submessage := 0, type := .bool }]

/-- In colour, the mode of the readings shows eight columns further left than it should. -/
theorem uncoloured_readingsPlan_ne :
    plan .plain readingsPlan = lines (headLines .plain readingsPlan
        ++ ["#1  @4   int32     -             repeated", "#2  @8   bool      bit 0"]) ∧
      uncoloured (plan .colored readingsPlan) = lines (headLines .plain readingsPlan
        ++ ["#1  @4   int32     -     repeated", "#2  @8   bool      bit 0"]) ∧
      uncoloured (plan .colored readingsPlan) ≠ plan .plain readingsPlan := by
  rw [(shows_plan readingsPlan).uncoloured_eq]
  decide +kernel

end Listing

end SchemaLayout
