import Wsac.Library.LittleEndian

/-! # `Module/AntiDebug` of the DLL: the heap tail

`CheckHeapProtection` walks the process heap to an allocated block and looks for the
marker that a debugged heap leaves behind its blocks.  `HeapWalk` is a finite list of
entries and then fails; `wFlags` is a bit set, in which `PROCESS_HEAP_ENTRY_BUSY` marks
the allocated blocks and may stand beside other flags.  The loop of the source compares
the whole set with that one flag. -/

set_option autoImplicit false

namespace Wsac.Dll.AntiDebug

open Library

inductive Status where
  | okay
  | bad
deriving DecidableEq

/-- `cfp::Result<Empty>` -/
structure Result where
  status : Status
  value : Option Unit
deriving DecidableEq

/-- The fields of `PROCESS_HEAP_ENTRY` that the check reads. -/
structure HeapEntry where
  wFlags : UInt16
  lpData : UInt64
  cbData : UInt32
deriving DecidableEq

abbrev Memory := UInt64 → UInt8

/-- `PROCESS_HEAP_ENTRY_BUSY` -/
def busy : UInt16 := 0x0004

/-- The address directly behind the block. -/
def HeapEntry.overlapped (entry : HeapEntry) : UInt64 := entry.lpData + entry.cbData.toUInt64

def word (memory : Memory) (address : UInt64) : List UInt8 :=
  [memory address, memory (address + 1), memory (address + 2), memory (address + 3)]

def dword (memory : Memory) (address : UInt64) : UInt32 :=
  UInt32.ofNat (LittleEndian.value (word memory address))

/-- The `do … while (entry.wFlags != PROCESS_HEAP_ENTRY_BUSY)` loop; `none` when `HeapWalk`
fails before the loop is left. -/
def walk : List HeapEntry → Option HeapEntry
  | [] => none
  | entry :: rest => if entry.wFlags ≠ busy then walk rest else some entry

def checkHeapProtection (entries : List HeapEntry) (memory : Memory) : Result :=
  match walk entries with
  | none => ⟨.okay, none⟩
  | some entry =>
      if dword memory entry.overlapped = 0xABABABAB then ⟨.bad, none⟩ else ⟨.okay, none⟩

/-! ## What the check is for -/

def HeapEntry.Allocated (entry : HeapEntry) : Prop := entry.wFlags &&& busy ≠ 0

instance (entry : HeapEntry) : Decidable entry.Allocated :=
  inferInstanceAs (Decidable (entry.wFlags &&& busy ≠ 0))

/-- The debugger's marker stands directly behind the block. -/
def HeapEntry.Marked (entry : HeapEntry) (memory : Memory) : Prop :=
  dword memory entry.overlapped = 0xABABABAB

def firstAllocated (entries : List HeapEntry) : Option HeapEntry :=
  entries.find? fun entry => decide entry.Allocated

/-- The first block whose flag set is `PROCESS_HEAP_ENTRY_BUSY` and nothing else. -/
def firstPlain (entries : List HeapEntry) : Option HeapEntry :=
  entries.find? fun entry => decide (entry.wFlags = busy)

/-- There is an allocated block, and the marker stands behind the first one. -/
def TailMarked (entries : List HeapEntry) (memory : Memory) : Prop :=
  ∃ block, firstAllocated entries = some block ∧ block.Marked memory

/-- The check tells whether the tail is marked. -/
def Tells (entries : List HeapEntry) (memory : Memory) : Prop :=
  (checkHeapProtection entries memory = ⟨.bad, none⟩ ↔ TailMarked entries memory) ∧
    (¬ TailMarked entries memory → checkHeapProtection entries memory = ⟨.okay, none⟩)

/-- Where the first allocated block carries further flags, the marker stands behind it just
when it stands behind the first block without further flags. -/
def Agrees (entries : List HeapEntry) (memory : Memory) : Prop :=
  ∀ block, firstAllocated entries = some block → block.wFlags ≠ busy →
    (block.Marked memory ↔ ∃ plain, firstPlain entries = some plain ∧ plain.Marked memory)

/-- The first allocated block carries no further flags, or ends at the very address where the
first block without further flags does. -/
def Undisguised (entries : List HeapEntry) : Prop :=
  ∀ block, firstAllocated entries = some block → block.wFlags = busy ∨
    ∃ plain, firstPlain entries = some plain ∧ plain.overlapped = block.overlapped

/-! ## The walk -/

theorem walk_eq_firstPlain (entries : List HeapEntry) : walk entries = firstPlain entries := by
  induction entries with
  | nil => rfl
  | cons entry rest ih =>
      by_cases plain : entry.wFlags = busy
      · simp only [walk, firstPlain, plain, ne_eq, not_true_eq_false, if_false,
          List.find?_cons_of_pos, decide_true]
      · rw [walk, if_pos plain, ih, firstPlain, firstPlain,
          List.find?_cons_of_neg (by simpa using plain)]

theorem allocated_of_plain {entry : HeapEntry} (plain : entry.wFlags = busy) :
    entry.Allocated := by
  rw [HeapEntry.Allocated, plain]
  decide

/-- A first allocated block without further flags is where the walk stops. -/
theorem firstPlain_of_plain {entries : List HeapEntry} {block : HeapEntry}
    (first : firstAllocated entries = some block) (plain : block.wFlags = busy) :
    firstPlain entries = some block := by
  obtain ⟨_, before, behind, whole, skipped⟩ := List.find?_eq_some_iff_append.mp first
  refine List.find?_eq_some_iff_append.mpr
    ⟨decide_eq_true plain, before, behind, whole, fun entry inside => ?_⟩
  have free := skipped entry inside
  simp only [Bool.not_eq_true', decide_eq_false_iff_not] at free ⊢
  exact fun same => free (allocated_of_plain same)

/-- A walk that stops has met an allocated block. -/
theorem firstAllocated_isSome {entries : List HeapEntry} {plain : HeapEntry}
    (stops : firstPlain entries = some plain) : ∃ block, firstAllocated entries = some block := by
  rw [firstPlain] at stops
  have alone := List.find?_some stops
  have allocated := allocated_of_plain (of_decide_eq_true alone)
  exact Option.isSome_iff_exists.mp
    (List.find?_isSome.mpr ⟨plain, List.mem_of_find?_eq_some stops, decide_eq_true allocated⟩)

theorem checkHeapProtection_bad_iff (entries : List HeapEntry) (memory : Memory) :
    checkHeapProtection entries memory = ⟨.bad, none⟩ ↔
      ∃ plain, firstPlain entries = some plain ∧ plain.Marked memory := by
  rw [checkHeapProtection, walk_eq_firstPlain]
  cases firstPlain entries with
  | none => simp
  | some plain => simp [HeapEntry.Marked]

/-- The check says one of two things. -/
theorem checkHeapProtection_okay (entries : List HeapEntry) (memory : Memory)
    (fine : checkHeapProtection entries memory ≠ ⟨.bad, none⟩) :
    checkHeapProtection entries memory = ⟨.okay, none⟩ := by
  rw [checkHeapProtection] at fine ⊢
  cases stops : walk entries with
  | none => rfl
  | some entry =>
      simp only [stops] at fine ⊢
      by_cases marked : dword memory entry.overlapped = 0xABABABAB
      · exact absurd (if_pos marked) fine
      · exact if_neg marked

theorem tells_iff_bad (entries : List HeapEntry) (memory : Memory) :
    Tells entries memory ↔
      ((∃ plain, firstPlain entries = some plain ∧ plain.Marked memory) ↔
        TailMarked entries memory) := by
  rw [Tells, checkHeapProtection_bad_iff]
  refine ⟨fun tells => tells.1, fun same => ⟨same, fun unmarked => ?_⟩⟩
  apply checkHeapProtection_okay
  rw [ne_eq, checkHeapProtection_bad_iff, same]
  exact unmarked

/-- For one list and one memory. -/
theorem tells_iff_agrees (entries : List HeapEntry) (memory : Memory) :
    Tells entries memory ↔ Agrees entries memory := by
  rw [tells_iff_bad]
  cases first : firstAllocated entries with
  | none =>
      have unmarked : ¬ TailMarked entries memory := by
        rintro ⟨block, found, _⟩
        rw [first] at found
        cases found
      have unstopped : ¬ ∃ plain, firstPlain entries = some plain ∧ plain.Marked memory := by
        rintro ⟨plain, stops, _⟩
        obtain ⟨block, found⟩ := firstAllocated_isSome stops
        rw [first] at found
        cases found
      refine ⟨fun _ block found => ?_, fun _ => iff_of_false unstopped unmarked⟩
      rw [first] at found
      cases found
  | some block =>
      have tail : TailMarked entries memory ↔ block.Marked memory := by
        simp only [TailMarked, first, Option.some.injEq, exists_eq_left']
      rw [tail, Agrees, first]
      by_cases plain : block.wFlags = busy
      · rw [firstPlain_of_plain first plain]
        simp only [Option.some.injEq, exists_eq_left', true_iff]
        intro other same disguised
        exact absurd (same ▸ plain) disguised
      · simp only [Option.some.injEq, forall_eq']
        exact ⟨fun same _ => same.symm, fun agrees => (agrees plain).symm⟩

/-! ## Every memory at once -/

/-- Zeros, and the marker at one address. -/
def markedAt (address : UInt64) : Memory :=
  fun other => if other - address < 4 then 0xAB else 0

theorem word_length (memory : Memory) (address : UInt64) : (word memory address).length = 4 := rfl

theorem dword_eq_marker_iff (memory : Memory) (address : UInt64) :
    dword memory address = 0xABABABAB ↔ word memory address = [0xAB, 0xAB, 0xAB, 0xAB] := by
  constructor
  · intro marked
    have bound := LittleEndian.value_lt (word memory address)
    rw [word_length] at bound
    have number := congrArg UInt32.toNat marked
    rw [dword, UInt32.toNat_ofNat', Nat.mod_eq_of_lt (by omega)] at number
    have whole := LittleEndian.digits_value (word memory address)
    rw [word_length] at whole
    rw [← whole, number]
    rfl
  · intro bytes
    rw [dword, bytes]
    rfl

theorem markedAt_dword (address : UInt64) : dword (markedAt address) address = 0xABABABAB := by
  have inside : ∀ step : UInt64, step < 4 → markedAt address (address + step) = 0xAB := by
    intro step below
    rw [markedAt, if_pos]
    rw [UInt64.add_comm, UInt64.add_sub_cancel]
    exact below
  have here : markedAt address address = 0xAB := by
    have start := inside 0 (by decide)
    rwa [UInt64.add_zero] at start
  rw [dword_eq_marker_iff, word, here, inside 1 (by decide), inside 2 (by decide),
    inside 3 (by decide)]

/-- Four bytes fit a window of four bytes only at its beginning. -/
theorem window_start {address other : UInt64} (first : other - address < 4)
    (last : other + 3 - address < 4) : other = address := by
  rw [UInt64.lt_iff_toNat_lt] at first last
  have shift : other + 3 - address = (other - address) + 3 := by grind
  rw [shift, UInt64.toNat_add] at last
  have none_between : (other - address).toNat = 0 := by
    have bound := (other - address).toNat_lt
    have three : (3 : UInt64).toNat = 3 := rfl
    have four : (4 : UInt64).toNat = 4 := rfl
    omega
  have same : other - address = 0 := UInt64.toNat_inj.mp none_between
  rw [← UInt64.sub_add_cancel other address, same, UInt64.zero_add]

/-- The marker stands nowhere else in that memory. -/
theorem markedAt_only {address other : UInt64}
    (marked : dword (markedAt address) other = 0xABABABAB) : other = address := by
  rw [dword_eq_marker_iff] at marked
  have within : ∀ place : UInt64, markedAt address place = 0xAB → place - address < 4 := by
    intro place byte
    by_contra outside
    rw [markedAt, if_neg outside] at byte
    exact absurd byte (by decide)
  injection marked with first rest
  injection rest with second rest
  injection rest with third rest
  injection rest with fourth rest
  exact window_start (within other first) (within (other + 3) fourth)

theorem undisguised_agrees {entries : List HeapEntry} (undisguised : Undisguised entries)
    (memory : Memory) : Agrees entries memory := by
  intro block first disguised
  obtain ⟨plain, stops, ends⟩ := (undisguised block first).resolve_left disguised
  have same : plain.Marked memory ↔ block.Marked memory := by
    rw [HeapEntry.Marked, HeapEntry.Marked, ends]
  rw [stops]
  simp only [Option.some.injEq, exists_eq_left', same]

theorem agrees_undisguised {entries : List HeapEntry}
    (agrees : ∀ memory, Agrees entries memory) : Undisguised entries := by
  intro block first
  by_cases disguised : block.wFlags = busy
  · exact Or.inl disguised
  · obtain ⟨plain, stops, marked⟩ := (agrees (markedAt block.overlapped) block first disguised).mp
      (markedAt_dword block.overlapped)
    exact Or.inr ⟨plain, stops, markedAt_only marked⟩

/-- Where the check tells the truth: for one memory, and for all of them. -/
theorem checkHeapProtection_tells_iff (entries : List HeapEntry) :
    (∀ memory, Tells entries memory ↔ Agrees entries memory) ∧
      ((∀ memory, Tells entries memory) ↔ Undisguised entries) := by
  refine ⟨tells_iff_agrees entries, ?_, ?_⟩
  · intro tells
    exact agrees_undisguised fun memory => (tells_iff_agrees entries memory).mp (tells memory)
  · intro undisguised memory
    exact (tells_iff_agrees entries memory).mpr (undisguised_agrees undisguised memory)

/-- A region, then a movable block (`BUSY | MOVEABLE`) with the marker behind it. -/
theorem checkHeapProtection_movable_block :
    ¬ Tells [⟨0x0001, 0, 0⟩, ⟨0x0014, 0x1000, 16⟩] (markedAt 0x1010) := by
  intro tells
  have marked : TailMarked [⟨0x0001, 0, 0⟩, ⟨0x0014, 0x1000, 16⟩] (markedAt 0x1010) :=
    ⟨⟨0x0014, 0x1000, 16⟩, by decide, markedAt_dword 0x1010⟩
  exact absurd (tells.1.mpr marked) (by decide)

end Wsac.Dll.AntiDebug
