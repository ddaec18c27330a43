import Mathlib.Data.List.TakeDrop
import Mathlib.Data.List.TakeWhile
import SchemaLayout.Program.Operand
import SchemaLayout.Proofs.Program.Fixed

/-!
# Instruction streams

Every operand of a stream is read back from what was written for it, whatever follows (`Reads`). Unlike
slots, numbers of free width also have forms that are too long, so the converse does not hold; but what
is read is always something that could have been written: a number of 64 bits, a text without zeros.
-/

namespace SchemaLayout.Program

variable {α β : Type}

/-! ## Readers of given units -/

/-- `read` takes `units` from the front of any program and makes `a` of them. -/
def Reads (read : Reader α) (units : Program) (a : α) : Prop :=
  ∀ rest, read (units ++ rest) = .ok a rest

theorem Reads.pure (a : α) : Reads (Pure.pure a) [] a := fun _ => rfl

/-- `Reads` goes through `>>=`. -/
theorem Reads.bind {read : Reader α} {next : α → Reader β} {first second : Program} {a : α} {b : β}
    (hfirst : Reads read first a) (hsecond : Reads (next a) second b) :
    Reads (read >>= next) (first ++ second) b := by
  intro rest
  rw [List.append_assoc, bind_eq_ok_iff]
  exact ⟨a, second ++ rest, hfirst _, hsecond rest⟩

/-- A last step that takes no units only changes the value. -/
theorem Reads.map {read : Reader α} {units : Program} {a : α} (h : Reads read units a) (f : α → β) :
    Reads (read >>= fun a => Pure.pure (f a)) units (f a) := by
  have hbind : Reads (read >>= fun a => Pure.pure (f a)) (units ++ []) (f a) :=
    h.bind (Reads.pure (f a))
  rwa [List.append_nil] at hbind

/-- `readMany` reads back a list if `read` does its elements. -/
theorem Reads.readMany {read : Reader α} {write : α → Program} {list : List α}
    (h : ∀ a ∈ list, Reads read (write a) a) :
    Reads (Program.readMany read list.length) (list.flatMap write) list := by
  induction list with
  | nil => exact Reads.pure []
  | cons a others ih =>
    obtain ⟨ha, hothers⟩ := List.forall_mem_cons.1 h
    exact ha.bind ((ih hothers).map (a :: ·))

/-! ## Numbers -/

theorem writeVarint_ne_nil (value : Nat) : writeVarint value ≠ [] := by
  rw [writeVarint]
  split <;> simp

theorem writeVarint_zero : writeVarint 0 = ['\x00'] := by
  rw [writeVarint]
  rfl

/-- `readVarint` reads back a number of 64 bits. -/
theorem reads_readVarint {value : Nat} (h : value < wordLimit) :
    Reads readVarint (writeVarint value) value := by
  intro rest
  induction value using Nat.strongRecOn with
  | ind value ih =>
    rw [writeVarint]
    -- The last group is below 64; all others are marked by 64 being added to them.
    by_cases hsmall : value < 64
    · rw [if_pos hsmall, List.singleton_append, readVarint, toNat_groupUnit (by omega), if_pos hsmall]
    · have hhigher := ih (value / 64) (by omega) (by omega)
      have hunit : 64 + value % 64 < 128 := by omega
      have hvalue : 64 + value % 64 - 64 + 64 * (value / 64) = value := by omega
      rw [if_neg hsmall, List.cons_append, readVarint, toNat_groupUnit hunit, if_neg (by omega),
        if_pos hunit, hhigher]
      simp only [hvalue, Nat.mod_eq_of_lt h]

/-- `readVarint` loses bits above the 64th. -/
theorem lt_wordLimit_of_readVarint {program rest : Program} {value : Nat}
    (h : readVarint program = .ok value rest) : value < wordLimit := by
  cases program with
  | nil => simp [readVarint] at h
  | cons unit tail =>
    rw [readVarint] at h
    split at h
    · next hunit =>
      cases h
      exact Nat.lt_trans hunit (by decide)
    · split at h
      · split at h
        · cases h
          exact Nat.mod_lt _ (by decide)
        · simp at h
      · simp at h

/-- `readInt32` reads back every number. -/
theorem reads_readInt32 (value : Int32) : Reads readInt32 (writeInt32 value) value := by
  have hlt : value.toUInt32.toNat < 4294967296 := value.toUInt32.toNat_lt
  have hword : value.toUInt32.toNat < wordLimit := Nat.lt_trans hlt (by decide)
  intro rest
  rw [readInt32, bind_eq_ok_iff]
  refine ⟨_, _, reads_readVarint hword rest, ?_⟩
  rw [if_pos (by omega), UInt32.ofNat_toNat]
  rfl

/-! ## Texts -/

/-- The text has no zero in it, which would end it early. -/
def IsZeroFree (content : String) : Prop :=
  '\x00' ∉ content.toList

instance (content : String) : Decidable (IsZeroFree content) :=
  inferInstanceAs (Decidable ('\x00' ∉ content.toList))

/-- `readText` reads back a text without zeros. -/
theorem reads_readText {content : String} (h : IsZeroFree content) :
    Reads readText (writeText content) content := by
  intro rest
  -- All of the text is taken, and then the zero that ends it stops the reader.
  have hall : ∀ unit ∈ content.toList, decide (unit ≠ '\x00') = true := by
    intro unit hunit
    have hne : unit ≠ '\x00' := fun heq => h (heq ▸ hunit)
    simpa using hne
  have hspan : (content.toList ++ '\x00' :: rest).span (· ≠ '\x00')
      = (content.toList, '\x00' :: rest) := by
    rw [List.span_eq_takeWhile_dropWhile, List.takeWhile_append_of_pos hall,
      List.dropWhile_append_of_pos hall]
    simp
  rw [writeText, writeVarint_zero, List.append_assoc, List.singleton_append, readText, hspan]
  simp

/-- What `readText` reads has no zeros. -/
theorem isZeroFree_of_readText {program rest : Program} {content : String}
    (h : readText program = .ok content rest) : IsZeroFree content := by
  rw [readText, List.span_eq_takeWhile_dropWhile] at h
  split at h
  · next units zero tail hspan =>
    cases h
    obtain ⟨rfl, _⟩ := Prod.mk.inj hspan
    intro hzero
    rw [String.toList_ofList] at hzero
    simpa using List.mem_takeWhile_imp hzero
  · simp at h

/-- `readTexts` reads back texts without zeros. -/
theorem reads_readTexts {contents : List String} (hcount : contents.length < wordLimit)
    (h : ∀ content ∈ contents, IsZeroFree content) :
    Reads readTexts (writeTexts contents) contents :=
  (reads_readVarint hcount).bind (Reads.readMany fun content hcontent =>
    reads_readText (h content hcontent))

theorem isZeroFree_of_readMany {count : Nat} {program rest : Program} {contents : List String}
    (h : readMany readText count program = .ok contents rest) :
    contents.length = count ∧ ∀ content ∈ contents, IsZeroFree content := by
  induction count generalizing program contents rest with
  | zero =>
    obtain ⟨rfl, _⟩ := pure_eq_ok_iff.1 h
    simp
  | succ count ih =>
    obtain ⟨first, _, hfirst, h⟩ := bind_eq_ok_iff.1 h
    obtain ⟨others, _, hothers, h⟩ := bind_eq_ok_iff.1 h
    obtain ⟨rfl, _⟩ := pure_eq_ok_iff.1 h
    obtain ⟨hlength, hall⟩ := ih hothers
    exact ⟨by rw [List.length_cons, hlength],
      List.forall_mem_cons.2 ⟨isZeroFree_of_readText hfirst, hall⟩⟩

/-- What `readTexts` reads can be written: no text has a zero, and their number has 64 bits. -/
theorem isZeroFree_of_readTexts {program rest : Program} {contents : List String}
    (h : readTexts program = .ok contents rest) :
    contents.length < wordLimit ∧ ∀ content ∈ contents, IsZeroFree content := by
  obtain ⟨count, _, hcount, h⟩ := bind_eq_ok_iff.1 h
  obtain ⟨rfl, hall⟩ := isZeroFree_of_readMany h
  exact ⟨lt_wordLimit_of_readVarint hcount, hall⟩

/-! ## Opcodes -/

/-- Opcodes can be told apart by their numbers, of which zero is none. -/
class LawfulOpcode (Op : Type) [Opcode Op] : Prop where
  number_ne_zero : ∀ op : Op, Opcode.number op ≠ 0
  number_lt : ∀ op : Op, Opcode.number op < wordLimit
  ofNumber?_number : ∀ op : Op, Opcode.ofNumber? (Opcode.number op) = some op

/-- `readOpcode` reads back an opcode that is lawful. -/
theorem reads_readOpcode {Op : Type} [Opcode Op] [LawfulOpcode Op] (op : Op) :
    Reads readOpcode (writeOpcode op) op := by
  intro rest
  have hvarint := reads_readVarint (LawfulOpcode.number_lt op) rest
  rw [readOpcode, bind_eq_ok_iff]
  refine ⟨_, _, hvarint, ?_⟩
  rw [if_neg (LawfulOpcode.number_ne_zero op), LawfulOpcode.ofNumber?_number]
  rfl

end SchemaLayout.Program
