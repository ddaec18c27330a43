import SchemaLayout.NameTable.Program
import SchemaLayout.Proofs.Program.Stream

/-!
# Reading name tables back

A name table is decoded to the entries that it was made of, in whatever order their numbers come and
however far they are apart: numbers are written as distances, and both the sum of distances and the count
of a reserved range wrap around, so that adding undoes what subtracting did. Reserved entries leave the
running number alone, for the writer and the reader alike.

Not every program that can be decoded is one that was encoded, but its entries are always ones that can be
encoded (`isWritable_of_decode`).
-/

namespace SchemaLayout

open Program

/-! ## Entries that can be written -/

namespace NameEntry

/-- No text of the entry has a zero in it, and the number of its aliases has 64 bits. -/
def IsWritable : NameEntry → Prop
  | same _ name | standard _ name | group _ name | reservedName name => IsZeroFree name
  | unique _ name json => IsZeroFree name ∧ IsZeroFree json
  | aliased _ name aliases =>
    IsZeroFree name ∧ aliases.length < wordLimit ∧ ∀ other ∈ aliases, IsZeroFree other
  | reservedNumbers _ _ => True

end NameEntry

instance : LawfulOpcode NameOpcode where
  number_ne_zero op := by
    cases op with
    | next form => cases form <;> decide
    | delta form => cases form <;> decide
    | reservedName => decide
    | reservedNumbers => decide
  number_lt op := by
    cases op with
    | next form => cases form <;> decide
    | delta form => cases form <;> decide
    | reservedName => decide
    | reservedNumbers => decide
  ofNumber?_number op := by
    cases op with
    | next form => cases form <;> rfl
    | delta form => cases form <;> rfl
    | reservedName => rfl
    | reservedNumbers => rfl

namespace NameTable

/-! ## Single entries -/

/-- `readEntry` reads back an entry with a number if `readNames` does: adding the distance to `previous` gives
the number, also where the distance wrapped around. -/
theorem reads_readEntry_of_readNames {previous number : Int32} {form : NameForm} {units : Program}
    {entry : NameEntry} (h : Reads (readNames number form) units entry) :
    Reads (readEntry previous) (writeNumbered previous number form ++ units) entry := by
  have hnumber : previous + (number - previous) = number := by
    rw [Int32.add_comm, Int32.sub_add_cancel]
  simp only [writeNumbered]
  by_cases hstep : number - previous = 1
  · rw [if_pos hstep]
    rw [hstep] at hnumber
    refine (reads_readOpcode (NameOpcode.next form)).bind ?_
    simp only [hnumber]
    exact h
  · rw [if_neg hstep, List.append_assoc]
    refine (reads_readOpcode (NameOpcode.delta form)).bind ?_
    refine (reads_readInt32 (number - previous)).bind ?_
    simp only [hnumber]
    exact h

/-- `readEntry` reads back what `writeEntry` writes for a writable entry. -/
theorem reads_readEntry {entry : NameEntry} (previous : Int32) (h : entry.IsWritable) :
    Reads (readEntry previous) (writeEntry previous entry) entry := by
  cases entry with
  | same number name =>
    exact reads_readEntry_of_readNames ((reads_readText h).map (NameEntry.same number))
  | standard number name =>
    exact reads_readEntry_of_readNames ((reads_readText h).map (NameEntry.standard number))
  | unique number name json =>
    rw [writeEntry, List.append_assoc]
    exact reads_readEntry_of_readNames
      ((reads_readText h.1).bind ((reads_readText h.2).map (NameEntry.unique number name)))
  | group number name =>
    exact reads_readEntry_of_readNames ((reads_readText h).map (NameEntry.group number))
  | aliased number name aliases =>
    obtain ⟨hname, hcount, haliases⟩ := h
    rw [writeEntry, List.append_assoc]
    exact reads_readEntry_of_readNames
      ((reads_readText hname).bind ((reads_readTexts hcount haliases).map
        (NameEntry.aliased number name)))
  | reservedName name =>
    exact (reads_readOpcode NameOpcode.reservedName).bind
      ((reads_readText h).map NameEntry.reservedName)
  | reservedNumbers first last =>
    -- The count wraps to zero for a full range, and adding it to the first number undoes that.
    have hlast : first + (last - first + 1) - 1 = last := by
      rw [← Int32.add_assoc, Int32.add_sub_cancel, Int32.add_comm, Int32.sub_add_cancel]
    rw [writeEntry, List.append_assoc]
    refine (reads_readOpcode NameOpcode.reservedNumbers).bind ?_
    refine (reads_readInt32 first).bind ?_
    have hcount := (reads_readInt32 (last - first + 1)).map fun count =>
      NameEntry.reservedNumbers first (first + count - 1)
    rwa [hlast] at hcount

theorem writeEntry_ne_nil (previous : Int32) (entry : NameEntry) :
    writeEntry previous entry ≠ [] := by
  have hnumbered (number : Int32) (form : NameForm) : writeNumbered previous number form ≠ [] := by
    simp only [writeNumbered]
    split <;> simp [writeOpcode, writeVarint_ne_nil]
  cases entry <;> simp [writeEntry, hnumbered, writeOpcode, writeVarint_ne_nil]

/-! ## Whole tables -/

/-- Every entry takes a unit at least. -/
theorem length_le_length_writeEntries (previous : Int32) (entries : List NameEntry) :
    entries.length ≤ (writeEntries previous entries).length := by
  induction entries generalizing previous with
  | nil => exact Nat.zero_le _
  | cons entry rest ih =>
    have hentry := List.length_pos_iff.2 (writeEntry_ne_nil previous entry)
    have hrest := ih (entry.number?.getD previous)
    rw [writeEntries, List.length_append, List.length_cons]
    omega

/-- `readEntries` reads back what `writeEntries` writes from the same `previous`. -/
theorem readEntries_writeEntries {fuel : Nat} {entries : List NameEntry} (previous : Int32)
    (hfuel : entries.length ≤ fuel) (h : ∀ entry ∈ entries, entry.IsWritable) :
    readEntries fuel previous (writeEntries previous entries) = .ok entries := by
  induction entries generalizing fuel previous with
  | nil => rw [writeEntries, readEntries]
  | cons entry rest ih =>
    obtain ⟨hentry, hrest⟩ := List.forall_mem_cons.1 h
    -- Every entry has a unit, so there is fuel left for it.
    obtain ⟨fuel, rfl⟩ : ∃ less, fuel = less + 1 :=
      ⟨fuel - 1, by rw [List.length_cons] at hfuel; omega⟩
    have hread := reads_readEntry previous hentry (writeEntries (entry.number?.getD previous) rest)
    have hothers := ih (entry.number?.getD previous) (Nat.le_of_succ_le_succ hfuel) hrest
    rw [writeEntries, readEntries, hread]
    · simp only [hothers]
      rfl
    · intro hnil
      exact writeEntry_ne_nil previous entry (List.append_eq_nil_iff.1 hnil).1

/-- `decode` reads back `encode` for writable entries. -/
theorem decode_encode {entries : List NameEntry} (h : ∀ entry ∈ entries, entry.IsWritable) :
    decode (encode entries) = .ok entries := by
  have hformat : readFormat (encode entries) = .ok () (writeEntries 0 entries) := by
    rw [readFormat, bind_eq_ok_iff]
    exact ⟨_, _, reads_readVarint (by decide) (writeEntries 0 entries), rfl⟩
  rw [decode, hformat]
  exact readEntries_writeEntries 0 (length_le_length_writeEntries 0 entries) h

/-! ## What can be decoded -/

/-- What `readNames` reads is writable. -/
theorem isWritable_of_readNames {number : Int32} {form : NameForm} {program rest : Program}
    {entry : NameEntry} (h : readNames number form program = .ok entry rest) : entry.IsWritable := by
  cases form with
  | same | standard | group =>
    obtain ⟨name, _, hname, h⟩ := bind_eq_ok_iff.1 h
    obtain ⟨rfl, _⟩ := pure_eq_ok_iff.1 h
    exact isZeroFree_of_readText hname
  -- The forms differ in how many texts they read.
  | unique =>
    obtain ⟨name, _, hname, h⟩ := bind_eq_ok_iff.1 h
    obtain ⟨json, _, hjson, h⟩ := bind_eq_ok_iff.1 h
    obtain ⟨rfl, _⟩ := pure_eq_ok_iff.1 h
    exact ⟨isZeroFree_of_readText hname, isZeroFree_of_readText hjson⟩
  | aliased =>
    obtain ⟨name, _, hname, h⟩ := bind_eq_ok_iff.1 h
    obtain ⟨aliases, _, haliases, h⟩ := bind_eq_ok_iff.1 h
    obtain ⟨rfl, _⟩ := pure_eq_ok_iff.1 h
    exact ⟨isZeroFree_of_readText hname, isZeroFree_of_readTexts haliases⟩

theorem isWritable_of_readEntry {previous : Int32} {program rest : Program} {entry : NameEntry}
    (h : readEntry previous program = .ok entry rest) : entry.IsWritable := by
  obtain ⟨op, _, _, h⟩ := bind_eq_ok_iff.1 h
  cases op with
  | next form => exact isWritable_of_readNames h
  | delta form =>
    obtain ⟨step, _, _, h⟩ := bind_eq_ok_iff.1 h
    exact isWritable_of_readNames h
  | reservedName =>
    obtain ⟨name, _, hname, h⟩ := bind_eq_ok_iff.1 h
    obtain ⟨rfl, _⟩ := pure_eq_ok_iff.1 h
    exact isZeroFree_of_readText hname
  | reservedNumbers =>
    obtain ⟨first, _, _, h⟩ := bind_eq_ok_iff.1 h
    obtain ⟨count, _, _, h⟩ := bind_eq_ok_iff.1 h
    obtain ⟨rfl, _⟩ := pure_eq_ok_iff.1 h
    trivial

theorem isWritable_of_readEntries {fuel : Nat} {previous : Int32} {program : Program}
    {entries : List NameEntry} (h : readEntries fuel previous program = .ok entries) :
    ∀ entry ∈ entries, entry.IsWritable := by
  induction fuel generalizing previous program entries with
  | zero =>
    cases program with
    | nil => cases h; simp
    | cons unit rest => cases h
  | succ fuel ih =>
    cases program with
    | nil => cases h; simp
    | cons unit rest =>
      rw [readEntries] at h
      · split at h
        · next entry rest hentry =>
          obtain ⟨others, hothers, h⟩ := except_bind_eq_ok_iff.1 h
          cases h
          exact List.forall_mem_cons.2 ⟨isWritable_of_readEntry hentry, ih hothers⟩
        · cases h
      · simp

/-- What `decode` reads is writable. -/
theorem isWritable_of_decode {program : Program} {entries : List NameEntry}
    (h : decode program = .ok entries) : ∀ entry ∈ entries, entry.IsWritable := by
  rw [decode] at h
  split at h
  · exact isWritable_of_readEntries h
  · cases h

/-- `decode` reads back `encode` exactly for writable entries, whatever the order of their numbers. What
`decode` reads is writable, so `encode` and `decode` give it back. -/
theorem decode_encode_iff_isWritable :
    (∀ entries : List NameEntry,
        decode (encode entries) = .ok entries ↔ ∀ entry ∈ entries, entry.IsWritable) ∧
      ∀ (program : Program) (entries : List NameEntry), decode program = .ok entries →
        (∀ entry ∈ entries, entry.IsWritable) ∧ decode (encode entries) = .ok entries :=
  ⟨fun _ => ⟨isWritable_of_decode, decode_encode⟩, fun _ _ h =>
    ⟨isWritable_of_decode h, decode_encode (isWritable_of_decode h)⟩⟩

/-- Steps between the ends of the numbers wrap around, and ranges may be full or empty. -/
theorem decode_encode_extremes :
    let entries : List NameEntry := [.same 2147483647 "top",
      .reservedNumbers (-2147483648) 2147483647, .unique (-2147483648) "bottom" "Bottom",
      .reservedNumbers 5 3, .reservedName "", .aliased (-2147483647) "next" ["other", "another"]]
    decode (encode entries) = .ok entries :=
  (decode_encode_iff_isWritable.1 _).2 (by simp [NameEntry.IsWritable, IsZeroFree, wordLimit])

end NameTable

end SchemaLayout
