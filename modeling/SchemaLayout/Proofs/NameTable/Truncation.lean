import Mathlib.Data.List.Infix
import SchemaLayout.Proofs.NameTable.RoundTrip
import SchemaLayout.Proofs.Program.RoundTrip
import SchemaLayout.Proofs.Program.Truncation

/-!
# Name tables that are cut short

The front of a name table's program is the program of the first entries, or it cannot be decoded
(`decode_of_cut`): between two instructions nothing tells that more were to follow, and anywhere else the
reader runs out of units. It never takes what is left of an instruction for another one.
-/

namespace SchemaLayout.NameTable

open Program

/-! ## Parts of a program -/

/-- The instructions of entries after the number `previous`, one for each entry. -/
def instructions (previous : Int32) : List NameEntry → List Program
  | [] => []
  | entry :: rest => writeEntry previous entry :: instructions (entry.number?.getD previous) rest

/-- The parts of a name table's program: the number of the format, then the instructions. -/
def parts (entries : List NameEntry) : List Program :=
  emptyStream :: instructions 0 entries

/-- The cut leaves some of `parts` as a whole, from the first one on, and nothing of the others. -/
def IsBetweenParts (entries : List NameEntry) (cut : Program) : Prop :=
  cut ∈ (parts entries).inits.map List.flatten

instance (entries : List NameEntry) (cut : Program) : Decidable (IsBetweenParts entries cut) :=
  inferInstanceAs (Decidable (cut ∈ (parts entries).inits.map List.flatten))

theorem flatten_instructions (previous : Int32) (entries : List NameEntry) :
    (instructions previous entries).flatten = writeEntries previous entries := by
  induction entries generalizing previous with
  | nil => rfl
  | cons entry rest ih => rw [instructions, List.flatten_cons, ih, writeEntries]

theorem flatten_parts (entries : List NameEntry) : (parts entries).flatten = encode entries := by
  rw [parts, List.flatten_cons, flatten_instructions, encode]

/-- The first `instructions` are those of the first entries. -/
theorem prefix_instructions_iff {previous : Int32} {entries : List NameEntry} {front : List Program} :
    front <+: instructions previous entries ↔ ∃ read, read <+: entries ∧ front = instructions previous read := by
  induction entries generalizing previous front with
  | nil => simp [instructions]
  | cons entry rest ih =>
    rw [instructions, List.prefix_cons_iff]
    constructor
    · rintro (rfl | ⟨others, rfl, hothers⟩)
      · exact ⟨[], List.nil_prefix, rfl⟩
      · obtain ⟨read, hread, rfl⟩ := ih.1 hothers
        exact ⟨entry :: read, List.cons_prefix_cons.2 ⟨rfl, hread⟩, rfl⟩
    · rintro ⟨read, hread, rfl⟩
      rcases List.prefix_cons_iff.1 hread with rfl | ⟨others, rfl, hothers⟩
      · exact Or.inl rfl
      · exact Or.inr ⟨_, rfl, ih.2 ⟨others, hothers, rfl⟩⟩

theorem encode_ne_nil (entries : List NameEntry) : encode entries ≠ [] :=
  List.append_ne_nil_of_left_ne_nil (writeVarint_ne_nil format) _

/-- A cut with `IsBetweenParts` is empty, or `encode` of the entries before it. -/
theorem isBetweenParts_iff {entries : List NameEntry} {cut : Program} :
    cut ≠ [] ∧ IsBetweenParts entries cut ↔ ∃ read, read <+: entries ∧ cut = encode read := by
  rw [IsBetweenParts, List.mem_map]
  constructor
  · rintro ⟨hcut, front, hfront, rfl⟩
    rw [List.mem_inits, parts, List.prefix_cons_iff] at hfront
    rcases hfront with rfl | ⟨others, rfl, hothers⟩
    · exact absurd rfl hcut
    · obtain ⟨read, hread, rfl⟩ := prefix_instructions_iff.1 hothers
      exact ⟨read, hread, flatten_parts read⟩
  · rintro ⟨read, hread, rfl⟩
    have hfront : parts read <+: parts entries :=
      List.cons_prefix_cons.2 ⟨rfl, prefix_instructions_iff.2 ⟨read, hread, rfl⟩⟩
    exact ⟨encode_ne_nil read, parts read, (List.mem_inits _ _).2 hfront, flatten_parts read⟩

/-! ## Single entries -/

/-- `readEntry` needs the opcode, the distance and all that `readNames` needs. -/
theorem needsAll_readEntry_of_readNames {previous number : Int32} {form : NameForm} {units : Program}
    (h : NeedsAll (readNames number form) units) :
    NeedsAll (readEntry previous) (writeNumbered previous number form ++ units) := by
  have hnumber : previous + (number - previous) = number := by
    rw [Int32.add_comm, Int32.sub_add_cancel]
  simp only [writeNumbered]
  by_cases hstep : number - previous = 1
  · rw [if_pos hstep]
    rw [hstep] at hnumber
    refine NeedsAll.bind (reads_readOpcode (NameOpcode.next form)) (needsAll_readOpcode _) ?_
    simp only [hnumber]
    exact h
  · rw [if_neg hstep, List.append_assoc]
    refine NeedsAll.bind (reads_readOpcode (NameOpcode.delta form)) (needsAll_readOpcode _) ?_
    refine NeedsAll.bind (reads_readInt32 (number - previous)) (needsAll_readInt32 _) ?_
    simp only [hnumber]
    exact h

/-- `readEntry` needs all that `writeEntry` writes. -/
theorem needsAll_readEntry {entry : NameEntry} (previous : Int32) (h : entry.IsWritable) :
    NeedsAll (readEntry previous) (writeEntry previous entry) := by
  cases entry with
  | same number name => exact needsAll_readEntry_of_readNames (needsAll_readText h).andThen
  | standard number name => exact needsAll_readEntry_of_readNames (needsAll_readText h).andThen
  | unique number name json =>
    rw [writeEntry, List.append_assoc]
    exact needsAll_readEntry_of_readNames
      (NeedsAll.bind (reads_readText h.1) (needsAll_readText h.1) (needsAll_readText h.2).andThen)
  | group number name => exact needsAll_readEntry_of_readNames (needsAll_readText h).andThen
  | aliased number name aliases =>
    obtain ⟨hname, hcount, haliases⟩ := h
    rw [writeEntry, List.append_assoc]
    exact needsAll_readEntry_of_readNames
      (NeedsAll.bind (reads_readText hname) (needsAll_readText hname)
        (needsAll_readTexts hcount haliases).andThen)
  | reservedName name =>
    exact NeedsAll.bind (reads_readOpcode NameOpcode.reservedName) (needsAll_readOpcode _)
      (needsAll_readText h).andThen
  | reservedNumbers first last =>
    rw [writeEntry, List.append_assoc]
    refine NeedsAll.bind (reads_readOpcode NameOpcode.reservedNumbers) (needsAll_readOpcode _) ?_
    exact NeedsAll.bind (reads_readInt32 first) (needsAll_readInt32 _)
      (needsAll_readInt32 (last - first + 1)).andThen

/-! ## Whole tables -/

/-- `readEntries` ends with `.unexpectedEnd` on a cut inside of an entry. -/
theorem readEntries_eq_unexpectedEnd {fuel : Nat} {previous : Int32} {entries : List NameEntry}
    {cut missing : Program} (h : ∀ entry ∈ entries, entry.IsWritable)
    (hcut : writeEntries previous entries = cut ++ missing) (hfuel : cut.length ≤ fuel)
    (hinside : ∀ read, read <+: entries → cut ≠ writeEntries previous read) :
    readEntries fuel previous cut = .error .unexpectedEnd := by
  induction entries generalizing fuel previous cut with
  | nil =>
    have hnil : cut = [] := (List.append_eq_nil_iff.1 hcut.symm).1
    exact absurd hnil (hinside [] List.nil_prefix)
  | cons entry rest ih =>
    obtain ⟨hentry, hrest⟩ := List.forall_mem_cons.1 h
    have hne : cut ≠ [] := hinside [] List.nil_prefix
    obtain ⟨fuel, rfl⟩ : ∃ less, fuel = less + 1 :=
      ⟨fuel - 1, by have hpos := List.length_pos_iff.2 hne; omega⟩
    rw [writeEntries] at hcut
    rcases whole_or_cut hcut with ⟨front, rfl, hfront⟩ | ⟨back, hback, hentryCut⟩
    -- The first entry is whole, and the cut is inside one of the others.
    · have hpos := List.length_pos_iff.2 (writeEntry_ne_nil previous entry)
      rw [List.length_append] at hfuel
      have hfuel : front.length ≤ fuel := by omega
      have hothers := ih hrest hfront hfuel fun read hread hwhole =>
        hinside (entry :: read) (List.cons_prefix_cons.2 ⟨rfl, hread⟩) (by rw [writeEntries, hwhole])
      rw [readEntries, reads_readEntry previous hentry front]
      · simp only [hothers]
        rfl
      · exact hne
    -- The first entry itself is cut.
    · obtain ⟨rest, hread⟩ := needsAll_readEntry previous hentry cut back hentryCut hback
      rw [readEntries, hread]
      exact hne

/-- `decode` of a proper front gives the entries before the cut if that `IsBetweenParts` and is not empty.
Otherwise it fails with `.unexpectedEnd`. -/
theorem decode_of_cut {entries : List NameEntry} (h : ∀ entry ∈ entries, entry.IsWritable)
    {cut : Program} (hcut : cut <+: encode entries) :
    (cut ≠ [] ∧ IsBetweenParts entries cut →
      ∃ read, read <+: entries ∧ cut = encode read ∧ decode cut = .ok read) ∧
    (¬ (cut ≠ [] ∧ IsBetweenParts entries cut) → decode cut = .error .unexpectedEnd) := by
  rw [isBetweenParts_iff]
  constructor
  · rintro ⟨read, hread, rfl⟩
    exact ⟨read, hread, rfl, decode_encode fun entry hentry => h entry (hread.subset hentry)⟩
  · intro hinside
    obtain ⟨missing, hmissing⟩ := hcut
    rcases whole_or_cut hmissing.symm with ⟨front, rfl, hentries⟩ | ⟨back, hback, hformatCut⟩
    · rw [decode, reads_readFormat front]
      refine readEntries_eq_unexpectedEnd h hentries (Nat.le_refl _) fun read hread heq => ?_
      exact hinside ⟨read, hread, by rw [heq, encode]⟩
    -- Not even the number of the format is there.
    · obtain ⟨rest, hformat⟩ := needsAll_readFormat cut back hformatCut hback
      rw [decode, hformat]

/-! ## A torn table -/

/-- The names of a house and of those who live in it. -/
def household : List NameEntry :=
  [.same 1 "id", .unique 70 "name" "label", .aliased 71 "home" ["house", "flat"]]

/-- Cut behind the second entry, two entries are left. Cut in the middle of a distance, none is. -/
theorem decode_of_cut_household : (∀ entry ∈ household, entry.IsWritable) ∧
    (encode (household.take 2) <+: encode household ∧
      decode (encode (household.take 2)) = .ok (household.take 2)) ∧
    ((encode household).take 6 <+: encode household ∧
      decode ((encode household).take 6) = .error .unexpectedEnd) := by
  have hwritable : ∀ entry ∈ household, entry.IsWritable := by
    simp [household, NameEntry.IsWritable, IsZeroFree, wordLimit]
  have hfront : encode (household.take 2) <+: encode household := by decide +kernel
  obtain ⟨read, _, _, hdecode⟩ := (decode_of_cut hwritable hfront).1 (by decide +kernel)
  have htwo : household.take 2 = read := by
    have htake : ∀ entry ∈ household.take 2, entry.IsWritable := fun entry hentry =>
      hwritable entry (List.mem_of_mem_take hentry)
    exact Except.ok.inj ((decode_encode htake).symm.trans hdecode)
  have hinside := (decode_of_cut hwritable (List.take_prefix 6 _)).2 (by decide +kernel)
  exact ⟨hwritable, ⟨hfront, htwo ▸ hdecode⟩, List.take_prefix _ _, hinside⟩

end SchemaLayout.NameTable
