import Wsac.Dll.Reads
import Wsac.Library.Border

/-! # `IO/frame/FrameReader` of the DLL

The scanner of Knuth, Morris and Pratt as the source has it, for a preamble of
any length.  Array accesses are checked: `none` stands for an index outside an
array or for a fallback loop that is not left. -/

set_option autoImplicit false

namespace Wsac.Dll.FrameReader

open Library Library.Exec

/-- `while (matched && b != kPreamble[matched]) matched = kLps[matched - 1];`
The first argument bounds the number of turns. -/
def fallBack (preamble : List UInt8) (lps : List Nat) (b : UInt8) : Nat → Nat → Option Nat
  | _, 0 => some 0
  | 0, _ + 1 => none
  | turns + 1, matched + 1 =>
      match preamble[matched + 1]? with
      | none => none
      | some expected =>
          if b = expected then some (matched + 1)
          else
            match lps[matched]? with
            | none => none
            | some shorter => fallBack preamble lps b turns shorter

/-- The fallback loop and the `if (b == kPreamble[matched]) ++matched;` behind it. -/
def advance (preamble : List UInt8) (lps : List Nat) (b : UInt8) (matched : Nat) : Option Nat :=
  match fallBack preamble lps b matched matched with
  | none => none
  | some kept =>
      match preamble[kept]? with
      | none => none
      | some expected => some (if b = expected then kept + 1 else kept)

/-- The `for` loop of the `kLps` lambda from index `i` on; its body has the shape of `advance`. -/
def fillLps (preamble : List UInt8) : Nat → Nat → List Nat → Nat → Option (List Nat)
  | 0, _, lps, _ => some lps
  | turns + 1, i, lps, len =>
      match preamble[i]? with
      | none => none
      | some b =>
          match advance preamble lps b len with
          | none => none
          | some len =>
              if i < lps.length then fillLps preamble turns (i + 1) (lps.set i len) len else none

def kLps (preamble : List UInt8) : Option (List Nat) :=
  fillLps preamble (preamble.length - 1) 1 (List.replicate preamble.length 0) 0

/-- The search loop.  Every turn takes one byte, so `bytesLeft` never runs out. -/
def searchLoop (pipe : Pipe) (preamble : List UInt8) (lps : List Nat) : Nat → Nat → Worker Unit
  | bytesLeft, matched =>
    if matched < preamble.length then do
      let b ← PipeReader.read pipe (List.Vector.replicate 1 0)
      match advance preamble lps b.head matched with
      | none => throw .outOfBounds
      | some matched =>
          match bytesLeft with
          | 0 => throw .spinning
          | bytesLeft + 1 => searchLoop pipe preamble lps bytesLeft matched
    else pure ()

def readUntilPreamble (pipe : Pipe) (preamble : List UInt8) : Worker Unit :=
  match kLps preamble with
  | none => throw .outOfBounds
  | some lps => do
      let world ← get
      searchLoop pipe preamble lps (pipe.wire.length - world.position) 0

def readHeader (cfg : Config) (pipe : Pipe) : Worker FrameHeader := do
  let header := FrameHeader.null cfg pipe.nullNonce
  let image ← PipeReader.read pipe header.encode
  pure (FrameHeader.decode image)

def readUnsafeData (pipe : Pipe) {size : Nat} (buffer : Bytes size) : Worker (Bytes size) :=
  PipeReader.read pipe buffer

/-! ## The table and the automaton -/

/-- The first `count` entries of `lps` are longest proper borders. -/
def Table (preamble : List UInt8) (lps : List Nat) (count : Nat) : Prop :=
  ∀ i, i < count → ∃ border, lps[i]? = some border ∧ LongestBorder preamble (i + 1) border

theorem Table.mono {preamble : List UInt8} {lps : List Nat} {more fewer : Nat}
    (table : Table preamble lps more) (le : fewer ≤ more) : Table preamble lps fewer :=
  fun i below => table i (by omega)

/-- Falling back keeps a matched suffix and skips no prefix that `b` extends. -/
theorem fallBack_run (preamble : List UInt8) (lps : List Nat) (b : UInt8) (text : List UInt8)
    (bound turns : Nat) : ∀ matched, matched ≤ turns → matched < preamble.length →
      Table preamble lps matched → preamble.take matched <:+ text →
      (∀ other, other < bound → preamble.take other <:+ text →
        preamble[other]? = some b → other ≤ matched) →
      ∃ kept, fallBack preamble lps b turns matched = some kept ∧ kept ≤ matched ∧
        preamble.take kept <:+ text ∧
        (∀ other, other < bound → preamble.take other <:+ text →
          preamble[other]? = some b → other ≤ kept) ∧
        (kept = 0 ∨ preamble[kept]? = some b) := by
  induction turns with
  | zero =>
      intro matched enough inside table suffix covers
      have matchedZero : matched = 0 := by omega
      subst matchedZero
      exact ⟨0, rfl, Nat.le_refl 0, suffix, covers, Or.inl rfl⟩
  | succ turns ih =>
      intro matched enough inside table suffix covers
      cases matched with
      | zero => exact ⟨0, rfl, Nat.le_refl 0, suffix, covers, Or.inl rfl⟩
      | succ matched =>
          have expected : preamble[matched + 1]? = some preamble[matched + 1] :=
            List.getElem?_eq_getElem inside
          by_cases hit : b = preamble[matched + 1]
          · refine ⟨matched + 1, ?_, Nat.le_refl _, suffix, covers, Or.inr (hit ▸ expected)⟩
            simp only [fallBack, expected, if_pos hit]
          · obtain ⟨border, entry, longest⟩ := table matched (by omega)
            have shorter := longest.lt
            have coversBorder : ∀ other, other < bound → preamble.take other <:+ text →
                preamble[other]? = some b → other ≤ border := by
              intro other below otherSuffix same
              have least := covers other below otherSuffix same
              have different : other ≠ matched + 1 := by
                intro equal
                rw [equal, expected, Option.some.injEq] at same
                exact hit same.symm
              exact longest.covers (by omega) suffix (by omega) otherSuffix
            obtain ⟨kept, ran, le, keptSuffix, keptCovers, settled⟩ := ih border (by omega)
              (by omega) (table.mono (by omega)) (longest.suffix_trans suffix) coversBorder
            refine ⟨kept, ?_, by omega, keptSuffix, keptCovers, settled⟩
            simp only [fallBack, expected, if_neg hit, entry, ran]

/-- One byte through the automaton: the longest matched prefix of the longer text. -/
theorem advance_run (preamble : List UInt8) (lps : List Nat) (b : UInt8) (text : List UInt8)
    (bound matched : Nat) (inside : bound ≤ preamble.length)
    (longest : LongestBelow bound preamble text matched) (table : Table preamble lps matched) :
    ∃ next, advance preamble lps b matched = some next ∧
      LongestBelow (bound + 1) preamble (text ++ [b]) next := by
  have short := longest.lt
  obtain ⟨kept, ran, le, suffix, covers, settled⟩ := fallBack_run preamble lps b text bound matched
    matched (Nat.le_refl _) (by omega) table longest.suffix
    (fun other below otherSuffix _ => longest.longest other below otherSuffix)
  obtain ⟨hit, miss⟩ := LongestBelow.step inside (by omega) suffix covers settled
  have expected : preamble[kept]? = some preamble[kept] := List.getElem?_eq_getElem (by omega)
  by_cases same : b = preamble[kept]
  · refine ⟨kept + 1, ?_, hit (same ▸ expected)⟩
    simp only [advance, ran, expected, if_pos same]
  · have differs : preamble[kept]? ≠ some b := by
      rw [expected, ne_eq, Option.some.injEq]
      exact fun equal => same equal.symm
    have keptZero : kept = 0 := settled.resolve_right differs
    refine ⟨kept, ?_, by rw [keptZero]; exact miss differs⟩
    simp only [advance, ran, expected, if_neg same]

theorem fillLps_run (preamble : List UInt8) (turns : Nat) :
    ∀ (i : Nat) (lps : List Nat) (len : Nat), i + turns = preamble.length →
      lps.length = preamble.length → Table preamble lps i → LongestBorder preamble i len →
      ∃ filled, fillLps preamble turns i lps len = some filled ∧
        filled.length = preamble.length ∧ Table preamble filled preamble.length := by
  induction turns with
  | zero =>
      intro i lps len whole size table longest
      refine ⟨lps, rfl, size, ?_⟩
      rw [← whole]
      exact table
  | succ turns ih =>
      intro i lps len whole size table longest
      have inside : i < preamble.length := by omega
      have entry : preamble[i]? = some preamble[i] := List.getElem?_eq_getElem inside
      obtain ⟨next, ran, nextLongest⟩ := advance_run preamble lps preamble[i] (preamble.take i) i
        len (by omega) longest (table.mono (Nat.le_of_lt longest.lt))
      rw [← List.take_succ_eq_append_getElem inside] at nextLongest
      have nextTable : Table preamble (lps.set i next) (i + 1) := by
        intro j below
        by_cases last : j = i
        · subst last
          exact ⟨next, by rw [List.getElem?_set_self (by omega)], nextLongest⟩
        · obtain ⟨border, found, border'⟩ := table j (by omega)
          exact ⟨border, by rw [List.getElem?_set_ne (Ne.symm last), found], border'⟩
      obtain ⟨filled, filledRun, filledSize, filledTable⟩ := ih (i + 1) (lps.set i next) next
        (by omega) (by rw [List.length_set, size]) nextTable nextLongest
      refine ⟨filled, ?_, filledSize, filledTable⟩
      simp only [fillLps, entry, ran]
      rw [if_pos (by omega), filledRun]

/-- The table is always built, and all its entries are longest proper borders. -/
theorem kLps_table (preamble : List UInt8) (nonempty : preamble ≠ []) :
    ∃ lps, kLps preamble = some lps ∧ lps.length = preamble.length ∧
      Table preamble lps preamble.length := by
  have positive := List.length_pos_iff.mpr nonempty
  have first : LongestBorder preamble 1 0 :=
    ⟨by omega, by simp, fun other below _ => by omega⟩
  apply fillLps_run preamble (preamble.length - 1) 1 _ 0 (by omega) (by simp) ?_ first
  intro i below
  have atZero : i = 0 := by omega
  subst atZero
  exact ⟨0, by rw [List.getElem?_replicate, if_pos positive], first⟩

/-- The table of every preamble: entry `i` is the longest proper prefix of the first
`i + 1` bytes that they also end with. -/
theorem kLps_longest (preamble : List UInt8) :
    ∃ lps, kLps preamble = some lps ∧ lps.length = preamble.length ∧
      ∀ i, i < preamble.length → ∃ border, lps[i]? = some border ∧ border ≤ i ∧
        preamble.take border <:+ preamble.take (i + 1) ∧
        ∀ other, other ≤ i → preamble.take other <:+ preamble.take (i + 1) → other ≤ border := by
  by_cases empty : preamble = []
  · rw [empty]
    exact ⟨[], rfl, rfl, fun i below => absurd below (Nat.not_lt_zero i)⟩
  · obtain ⟨lps, built, size, table⟩ := kLps_table preamble empty
    refine ⟨lps, built, size, fun i below => ?_⟩
    obtain ⟨border, entry, longest⟩ := table i below
    exact ⟨border, entry, Nat.le_of_lt_succ longest.lt, longest.suffix,
      fun other le suffix => longest.longest other (Nat.lt_succ_of_le le) suffix⟩

example : kLps [1, 1, 2, 1, 1, 1] = some [0, 1, 0, 1, 2, 2] := by decide

/-! ## The search over the pipe -/

theorem nothing_matched (preamble text : List UInt8) (nonempty : preamble ≠ []) :
    LongestBelow preamble.length preamble (text.take 0) 0 := by
  refine ⟨List.length_pos_iff.mpr nonempty, by simp, fun other below suffix => ?_⟩
  have short := suffix.length_le
  rw [List.take_zero, List.length_take, List.length_nil] at short
  omega

theorem searchLoop_seeks (pipe : Pipe) (preamble : List UInt8) (lps : List Nat)
    (bytesLeft : Nat) :
    ∀ matched, Moves Seeks (searchLoop pipe preamble lps bytesLeft matched) := by
  have still : ∀ failure, Moves Seeks (throw failure : Worker Unit) := Moves.throw Seeks.refl
  induction bytesLeft with
  | zero =>
      intro matched
      unfold searchLoop
      apply Moves.ite _ (Moves.pure Seeks.refl _)
      apply Moves.bind Seeks.trans (PipeReader.read_reads pipe _).seeks
      intro b
      cases advance preamble lps b.head matched with
      | none => exact still _
      | some next => exact still _
  | succ bytesLeft ih =>
      intro matched
      unfold searchLoop
      apply Moves.ite _ (Moves.pure Seeks.refl _)
      apply Moves.bind Seeks.trans (PipeReader.read_reads pipe _).seeks
      intro b
      cases advance preamble lps b.head matched with
      | none => exact still _
      | some next => exact ih next

theorem readUntilPreamble_seeks (pipe : Pipe) (preamble : List UInt8) :
    Moves Seeks (readUntilPreamble pipe preamble) := by
  unfold readUntilPreamble
  cases kLps preamble with
  | none => exact Moves.throw Seeks.refl _
  | some lps =>
      apply Moves.bind Seeks.trans Reads.get.seeks
      intro world
      exact searchLoop_seeks pipe preamble lps _ _

theorem readHeader_reads (cfg : Config) (pipe : Pipe) : Reads (readHeader cfg pipe) := by
  apply Reads.bind (PipeReader.read_reads pipe _)
  intro image
  exact Reads.pure _

/-- A read of one byte that returns, put into the automaton. -/
theorem advance_read (pipe : Pipe) (preamble : List UInt8) (lps : List Nat)
    (matched start taken : Nat) (table : Table preamble lps preamble.length)
    (longest : LongestBelow preamble.length preamble ((pipe.wire.drop start).take taken) matched)
    {b filled : Bytes 1} {world after : World} (at_ : world.position = start + taken)
    (ran : (PipeReader.read pipe b).run world = .ok filled after) :
    taken < (pipe.wire.drop start).length ∧ after.position = start + (taken + 1) ∧
      ∃ next, advance preamble lps filled.head matched = some next ∧
        LongestBelow (preamble.length + 1) preamble
          ((pipe.wire.drop start).take (taken + 1)) next := by
  obtain ⟨_, moved, content⟩ := PipeReader.read_ok pipe ran
  have inside : taken < (pipe.wire.drop start).length := by
    have one := congrArg List.length content
    rw [List.Vector.toList_length, List.length_take, List.length_drop, at_] at one
    rw [List.length_drop]
    omega
  have byte : filled.head = (pipe.wire.drop start)[taken] := by
    rw [at_, ← List.drop_drop, List.drop_eq_getElem_cons inside, List.take_succ_cons,
      List.take_zero] at content
    have filledExact : filled = (pipe.wire.drop start)[taken] ::ᵥ List.Vector.nil :=
      List.Vector.eq _ _ content
    rw [filledExact, List.Vector.head_cons]
  obtain ⟨next, advanced, nextLongest⟩ := advance_run preamble lps filled.head _ preamble.length
    matched (Nat.le_refl _) longest (table.mono (Nat.le_of_lt longest.lt))
  refine ⟨inside, ?_, next, advanced, ?_⟩
  · rw [moved, seek_position]
    omega
  · rw [List.take_succ_eq_append_getElem inside, ← byte]
    exact nextLongest

section Stopped
variable (pipe : Pipe) (preamble : List UInt8) (lps : List Nat) (start : Nat)
  (table : Table preamble lps preamble.length)
include table

omit table in
/-- A turn whose byte ends no occurrence goes on with the next one. -/
theorem not_endsAt_next {taken next : Nat} (different : next ≠ preamble.length)
    (longest : LongestBelow (preamble.length + 1) preamble
      ((pipe.wire.drop start).take (taken + 1)) next) {stop : Nat} (beyond : taken < stop)
    (rest : taken + 1 < stop → ¬ EndsAt preamble (pipe.wire.drop start) stop) :
    ¬ EndsAt preamble (pipe.wire.drop start) stop := by
  by_cases here : stop = taken + 1
  · subst here
    exact fun ends => different (longest.eq_length_iff.mpr ends.2)
  · exact rest (by omega)

/-- A search that returns stands right behind the first occurrence. -/
theorem searchLoop_ok (bytesLeft : Nat) :
    ∀ (taken matched : Nat) (world after : World), world.position = start + taken →
      LongestBelow preamble.length preamble ((pipe.wire.drop start).take taken) matched →
      (searchLoop pipe preamble lps bytesLeft matched).run world = .ok () after →
      ∃ stop, taken < stop ∧ after.position = start + stop ∧
        EndsAt preamble (pipe.wire.drop start) stop ∧
        ∀ earlier, taken < earlier → earlier < stop →
          ¬ EndsAt preamble (pipe.wire.drop start) earlier := by
  induction bytesLeft with
  | zero =>
      intro taken matched world after at_ longest ran
      rw [searchLoop, if_pos longest.lt] at ran
      obtain ⟨filled, middle, read, ran⟩ := run_bind_eq_ok.mp ran
      obtain ⟨_, _, next, advanced, _⟩ :=
        advance_read pipe preamble lps matched start taken table longest at_ read
      simp only [advanced] at ran
      cases ran
  | succ bytesLeft ih =>
      intro taken matched world after at_ longest ran
      rw [searchLoop, if_pos longest.lt] at ran
      obtain ⟨filled, middle, read, ran⟩ := run_bind_eq_ok.mp ran
      obtain ⟨inside, position, next, advanced, nextLongest⟩ :=
        advance_read pipe preamble lps matched start taken table longest at_ read
      simp only [advanced] at ran
      by_cases full : next = preamble.length
      · unfold searchLoop at ran
        rw [full, if_neg (Nat.lt_irrefl _)] at ran
        cases ran
        refine ⟨taken + 1, by omega, position, ⟨inside, nextLongest.eq_length_iff.mp full⟩, ?_⟩
        intro earlier beyond before
        omega
      · have below := nextLongest.lt
        obtain ⟨stop, beyond, there, ends, first⟩ := ih (taken + 1) next middle after position
          (nextLongest.narrow (by omega)) ran
        refine ⟨stop, by omega, there, ends, fun earlier later before => ?_⟩
        exact not_endsAt_next pipe preamble start full nextLongest later
          fun further => first earlier further before

/-- A search that fails does so in a read, with no occurrence behind it. -/
theorem searchLoop_error (bytesLeft : Nat) :
    ∀ (taken matched : Nat) (world after : World) (failure : Exit),
      world.position = start + taken →
      LongestBelow preamble.length preamble ((pipe.wire.drop start).take taken) matched →
      (searchLoop pipe preamble lps bytesLeft matched).run world = .error failure after →
      failure ≠ .outOfBounds ∧ ∀ stop, taken < stop → start + stop < after.position →
        ¬ EndsAt preamble (pipe.wire.drop start) stop := by
  have failing : ∀ (taken : Nat) (world after : World) (failure : Exit),
      world.position = start + taken →
      (PipeReader.read pipe (List.Vector.replicate 1 0)).run world = .error failure after →
      failure ≠ .outOfBounds ∧ ∀ stop, taken < stop → start + stop < after.position →
        ¬ EndsAt preamble (pipe.wire.drop start) stop := by
    intro taken world after failure at_ failed
    refine ⟨(PipeReader.read_reads pipe _).inside _ _ _ failed, fun stop beyond before => ?_⟩
    have within := PipeReader.read_within pipe (by decide) (List.Vector.replicate 1 0) world
    rw [failed] at within
    simp only [finalState_error] at within
    omega
  induction bytesLeft with
  | zero =>
      intro taken matched world after failure at_ longest failed
      rw [searchLoop, if_pos longest.lt] at failed
      rcases run_bind_eq_error.mp failed with read | ⟨filled, middle, read, failed⟩
      · exact failing taken world after failure at_ read
      · obtain ⟨_, position, next, advanced, _⟩ :=
          advance_read pipe preamble lps matched start taken table longest at_ read
        simp only [advanced] at failed
        cases failed
        refine ⟨by decide, fun stop beyond before => ?_⟩
        omega
  | succ bytesLeft ih =>
      intro taken matched world after failure at_ longest failed
      rw [searchLoop, if_pos longest.lt] at failed
      rcases run_bind_eq_error.mp failed with read | ⟨filled, middle, read, failed⟩
      · exact failing taken world after failure at_ read
      · obtain ⟨_, position, next, advanced, nextLongest⟩ :=
          advance_read pipe preamble lps matched start taken table longest at_ read
        simp only [advanced] at failed
        by_cases full : next = preamble.length
        · unfold searchLoop at failed
          rw [full, if_neg (Nat.lt_irrefl _)] at failed
          cases failed
        · have below := nextLongest.lt
          obtain ⟨inside, never⟩ := ih (taken + 1) next middle after failure position
            (nextLongest.narrow (by omega)) failed
          refine ⟨inside, fun stop later before => ?_⟩
          exact not_endsAt_next pipe preamble start full nextLongest later
            fun further => never stop further before

end Stopped

theorem not_endsAt_zero (preamble : List UInt8) (nonempty : preamble ≠ []) {text : List UInt8} :
    ¬ EndsAt preamble text 0 := by
  intro ends
  have length := ends.length_le
  have positive := List.length_pos_iff.mpr nonempty
  omega

theorem readUntilPreamble_eq (pipe : Pipe) (preamble : List UInt8) (nonempty : preamble ≠ [])
    (world : World) :
    ∃ lps, Table preamble lps preamble.length ∧
      (readUntilPreamble pipe preamble).run world =
        (searchLoop pipe preamble lps (pipe.wire.length - world.position) 0).run world := by
  obtain ⟨lps, built, _, table⟩ := kLps_table preamble nonempty
  refine ⟨lps, table, ?_⟩
  simp only [readUntilPreamble, built]
  rw [run_get_bind]

section Quiet
variable (pipe : Pipe) (quiet : pipe.stopAt = none)
include quiet

/-- One turn of the search while bytes are left. -/
theorem searchLoop_turn (preamble : List UInt8) (lps : List Nat)
    (bytesLeft matched start taken : Nat) (world : World)
    (table : Table preamble lps preamble.length)
    (at_ : world.position = start + taken) (more : start + taken < pipe.wire.length)
    (longest : LongestBelow preamble.length preamble ((pipe.wire.drop start).take taken) matched) :
    ∃ next asked,
      (searchLoop pipe preamble lps (bytesLeft + 1) matched).run world =
        (searchLoop pipe preamble lps bytesLeft next).run
          (world.seek (start + (taken + 1)) asked) ∧
      LongestBelow (preamble.length + 1) preamble
        ((pipe.wire.drop start).take (taken + 1)) next := by
  obtain ⟨filled, asked, ran, _⟩ := PipeReader.read_run pipe quiet (by decide : 1 < 2 ^ 32)
    (List.Vector.replicate 1 0) world (by omega)
  obtain ⟨_, _, next, advanced, nextLongest⟩ :=
    advance_read pipe preamble lps matched start taken table longest at_ ran
  refine ⟨next, asked, ?_, nextLongest⟩
  rw [searchLoop, if_pos longest.lt, run_bind_ok ran]
  simp only [advanced, at_, Nat.add_assoc]

theorem searchLoop_found (preamble : List UInt8) (lps : List Nat) (start stop : Nat)
    (table : Table preamble lps preamble.length)
    (first : FirstEnd preamble (pipe.wire.drop start) stop) (bytesLeft : Nat) :
    ∀ (taken matched : Nat) (world : World), world.position = start + taken → taken < stop →
      stop - taken ≤ bytesLeft →
      LongestBelow preamble.length preamble ((pipe.wire.drop start).take taken) matched →
      ∃ asked, (searchLoop pipe preamble lps bytesLeft matched).run world =
        .ok () (world.seek (start + stop) asked) := by
  have onWire := first.1.1
  rw [List.length_drop] at onWire
  induction bytesLeft with
  | zero => intro taken matched world at_ before left; omega
  | succ bytesLeft ih =>
      intro taken matched world at_ before left longest
      obtain ⟨next, asked, turn, nextLongest⟩ := searchLoop_turn pipe quiet preamble lps bytesLeft
        matched start taken world table at_ (by omega) longest
      by_cases last : taken + 1 = stop
      · have full : next = preamble.length :=
          nextLongest.eq_length_iff.mpr (by rw [last]; exact first.1.2)
        refine ⟨asked, ?_⟩
        rw [turn, searchLoop, full, if_neg (Nat.lt_irrefl _), last]
        rfl
      · have partial_ : next ≠ preamble.length := by
          intro full
          refine first.2 (taken + 1) (by omega) ⟨?_, nextLongest.eq_length_iff.mp full⟩
          rw [List.length_drop]
          omega
        have below := nextLongest.lt
        obtain ⟨asked', ran⟩ := ih (taken + 1) next (world.seek (start + (taken + 1)) asked) rfl
          (by omega) (by omega) (nextLongest.narrow (by omega))
        exact ⟨asked', turn.trans ran⟩

theorem searchLoop_missing (preamble : List UInt8) (lps : List Nat) (start : Nat)
    (table : Table preamble lps preamble.length)
    (never : ∀ stop, ¬ EndsAt preamble (pipe.wire.drop start) stop) (bytesLeft : Nat) :
    ∀ (taken matched : Nat) (world : World), world.position = start + taken →
      start + taken ≤ pipe.wire.length → pipe.wire.length - (start + taken) ≤ bytesLeft →
      LongestBelow preamble.length preamble ((pipe.wire.drop start).take taken) matched →
      ∃ asked, (searchLoop pipe preamble lps bytesLeft matched).run world =
        .error pipe.afterEnd (world.seek pipe.wire.length asked) := by
  have ended : ∀ (bytesLeft taken matched : Nat) (world : World), world.position = start + taken →
      start + taken = pipe.wire.length → matched < preamble.length →
      ∃ asked, (searchLoop pipe preamble lps bytesLeft matched).run world =
        .error pipe.afterEnd (world.seek pipe.wire.length asked) := by
    intro bytesLeft taken matched world at_ atEnd short
    obtain ⟨asked, ran⟩ := PipeReader.read_short pipe quiet
      (by decide : 1 < 2 ^ 32) (List.Vector.replicate 1 0) world (by omega) (by omega)
    refine ⟨asked, ?_⟩
    unfold searchLoop
    rw [if_pos short, run_bind_error ran]
  induction bytesLeft with
  | zero =>
      intro taken matched world at_ onWire left longest
      exact ended 0 taken matched world at_ (by omega) longest.lt
  | succ bytesLeft ih =>
      intro taken matched world at_ onWire left longest
      by_cases more : start + taken < pipe.wire.length
      · obtain ⟨next, asked, turn, nextLongest⟩ := searchLoop_turn pipe quiet preamble lps bytesLeft
          matched start taken world table at_ more longest
        have partial_ : next ≠ preamble.length := by
          intro full
          refine never (taken + 1) ⟨?_, nextLongest.eq_length_iff.mp full⟩
          rw [List.length_drop]
          omega
        have below := nextLongest.lt
        obtain ⟨asked', ran⟩ := ih (taken + 1) next (world.seek (start + (taken + 1)) asked) rfl
          (by omega) (by omega) (nextLongest.narrow (by omega))
        exact ⟨asked', turn.trans ran⟩
      · exact ended (bytesLeft + 1) taken matched world at_ (by omega) longest.lt

/-- The scanner stops right behind the first occurrence from where it starts. -/
theorem readUntilPreamble_found (preamble : List UInt8) (nonempty : preamble ≠ []) (world : World)
    (stop : Nat) (first : FirstEnd preamble (pipe.wire.drop world.position) stop) :
    ∃ asked, (readUntilPreamble pipe preamble).run world =
      .ok () (world.seek (world.position + stop) asked) := by
  obtain ⟨lps, table, started⟩ := readUntilPreamble_eq pipe preamble nonempty world
  have positive := List.length_pos_iff.mpr nonempty
  have long := first.1.length_le
  have onWire := first.1.1
  rw [List.length_drop] at onWire
  obtain ⟨asked, ran⟩ := searchLoop_found pipe quiet preamble lps world.position stop table first
    (pipe.wire.length - world.position) 0 0 world rfl (by omega) (by omega)
    (nothing_matched preamble _ nonempty)
  exact ⟨asked, started.trans ran⟩

/-- Without an occurrence the scanner reads to the end of the wire and fails there. -/
theorem readUntilPreamble_missing (preamble : List UInt8) (nonempty : preamble ≠ [])
    (world : World) (onWire : world.position ≤ pipe.wire.length)
    (never : ∀ stop, ¬ EndsAt preamble (pipe.wire.drop world.position) stop) :
    ∃ asked, (readUntilPreamble pipe preamble).run world =
      .error pipe.afterEnd (world.seek pipe.wire.length asked) := by
  obtain ⟨lps, table, started⟩ := readUntilPreamble_eq pipe preamble nonempty world
  obtain ⟨asked, ran⟩ := searchLoop_missing pipe quiet preamble lps
    world.position table never (pipe.wire.length - world.position) 0 0 world rfl onWire (by omega)
    (nothing_matched preamble _ nonempty)
  exact ⟨asked, started.trans ran⟩

theorem readHeader_run (cfg : Config) (world : World)
    (enough : world.position + 38 ≤ pipe.wire.length) :
    ∃ (image : Image) (asked : Nat),
      (readHeader cfg pipe).run world =
        .ok (FrameHeader.decode image) (world.seek (world.position + 38) asked) ∧
      image.toList = (pipe.wire.drop world.position).take 38 := by
  obtain ⟨image, asked, ran, content⟩ := PipeReader.read_run pipe quiet (by decide : 38 < 2 ^ 32)
    (FrameHeader.null cfg pipe.nullNonce).encode world enough
  refine ⟨image, asked, ?_, content⟩
  simp only [readHeader]
  rw [run_bind_ok ran]
  rfl

theorem readHeader_short (cfg : Config) (world : World)
    (onWire : world.position ≤ pipe.wire.length)
    (short : pipe.wire.length < world.position + 38) :
    ∃ asked, (readHeader cfg pipe).run world =
      .error pipe.afterEnd (world.seek pipe.wire.length asked) := by
  obtain ⟨asked, ran⟩ := PipeReader.read_short pipe quiet
    (by decide : 38 < 2 ^ 32) (FrameHeader.null cfg pipe.nullNonce).encode world onWire short
  refine ⟨asked, ?_⟩
  simp only [readHeader]
  rw [run_bind_error ran]

end Quiet

section Stopped
variable (pipe : Pipe) (preamble : List UInt8) (nonempty : preamble ≠ []) (world : World)
include nonempty

/-- Whatever the stop token does: a scanner that returns stands right behind the
first occurrence. -/
theorem readUntilPreamble_ok {after : World}
    (ran : (readUntilPreamble pipe preamble).run world = .ok () after) :
    ∃ stop, FirstEnd preamble (pipe.wire.drop world.position) stop ∧
      after = world.seek (world.position + stop) after.asked := by
  have moved := readUntilPreamble_seeks pipe preamble world
  rw [ran] at moved
  obtain ⟨lps, table, started⟩ := readUntilPreamble_eq pipe preamble nonempty world
  obtain ⟨stop, _, there, ends, first⟩ := searchLoop_ok pipe preamble lps world.position table
    _ 0 0 world after rfl (nothing_matched preamble _ nonempty) (started.symm.trans ran)
  refine ⟨stop, ⟨ends, fun earlier before => ?_⟩, ?_⟩
  · cases earlier with
    | zero => exact not_endsAt_zero preamble nonempty
    | succ earlier => exact first _ (Nat.succ_pos _) before
  · rw [← there]
    exact moved.same

theorem readUntilPreamble_error {failure : Exit} {after : World}
    (failed : (readUntilPreamble pipe preamble).run world = .error failure after) :
    failure ≠ .outOfBounds ∧ after = world.seek after.position after.asked ∧
      ∀ stop, world.position + stop < after.position →
        ¬ EndsAt preamble (pipe.wire.drop world.position) stop := by
  have moved := readUntilPreamble_seeks pipe preamble world
  rw [failed] at moved
  obtain ⟨lps, table, started⟩ := readUntilPreamble_eq pipe preamble nonempty world
  obtain ⟨inside, never⟩ := searchLoop_error pipe preamble lps world.position table
    _ 0 0 world after failure rfl (nothing_matched preamble _ nonempty) (started.symm.trans failed)
  refine ⟨inside, moved.same, fun stop before => ?_⟩
  cases stop with
  | zero => exact not_endsAt_zero preamble nonempty
  | succ stop => exact never _ (Nat.succ_pos _) before

end Stopped

/-- Without a stop the scanner takes exactly the shortest stretch that ends with the
preamble; where there is none it reads on to the end of the wire.  Under a stop
it still returns nowhere else.  No index leaves `kPreamble` or `kLps`, and no
fallback loop goes on for ever. -/
theorem readUntilPreamble_correct (preamble : List UInt8) (nonempty : preamble ≠ []) :
    (∀ (pipe : Pipe) (world : World),
      (∀ after, (readUntilPreamble pipe preamble).run world = .ok () after →
        ∃ stop, FirstEnd preamble (pipe.wire.drop world.position) stop ∧
          after = world.seek (world.position + stop) after.asked) ∧
      (∀ failure after, (readUntilPreamble pipe preamble).run world = .error failure after →
        failure ≠ .outOfBounds ∧ after = world.seek after.position after.asked ∧
          ∀ stop, world.position + stop < after.position →
            ¬ EndsAt preamble (pipe.wire.drop world.position) stop)) ∧
    (∀ (pipe : Pipe) (world : World), pipe.stopAt = none →
      (∀ stop, FirstEnd preamble (pipe.wire.drop world.position) stop →
        ∃ asked, (readUntilPreamble pipe preamble).run world =
          .ok () (world.seek (world.position + stop) asked)) ∧
      (world.position ≤ pipe.wire.length →
        (∀ stop, ¬ EndsAt preamble (pipe.wire.drop world.position) stop) →
        ∃ asked, (readUntilPreamble pipe preamble).run world =
          .error pipe.afterEnd (world.seek pipe.wire.length asked))) := by
  refine ⟨fun pipe world => ⟨?_, ?_⟩, fun pipe world quiet => ⟨?_, ?_⟩⟩
  · exact fun after => readUntilPreamble_ok pipe preamble nonempty world
  · exact fun failure after => readUntilPreamble_error pipe preamble nonempty world
  · intro stop first
    exact readUntilPreamble_found pipe quiet preamble nonempty world stop first
  · intro onWire never
    exact readUntilPreamble_missing pipe quiet preamble nonempty world onWire never

theorem readUntilPreamble_repetitive :
    ∃ asked, (readUntilPreamble (Pipe.waiting [7, 1, 1, 1, 2, 9] Sample.nonce) [1, 1, 2]).run
      World.start = .ok () (World.start.seek 5 asked) := by
  have first : FirstEnd [1, 1, 2] ([7, 1, 1, 1, 2, 9] : List UInt8) 5 := by
    unfold FirstEnd EndsAt
    decide
  exact ((readUntilPreamble_correct [1, 1, 2] (by decide)).2
    (Pipe.waiting [7, 1, 1, 1, 2, 9] Sample.nonce) World.start rfl).1 5 first

end Wsac.Dll.FrameReader
