import Mathlib.Logic.Relation
import Wsac.Service.Turn

/-! # Where a session divides its wire

Between two questions of the loop of `RunAsyncInternal` a session takes six bytes, or six
bytes, a header and the pieces that cover a body.  `Block` says so of the bytes, of the pieces
in which the pipe hands them out and of the writes it takes, and of nothing that runs. -/

set_option autoImplicit false

namespace Wsac.Service

open Library Library.Exec Relation

/-- From here to there the pieces lead that a read of `size` bytes takes with `i` of them
behind it.  At the end of the wire they are empty and lead nowhere. -/
inductive Landing (client : Client) (requested : Nat) (size : Int64) :
    Nat → Int64 → Nat → Prop where
  | done (position : Nat) (i : Int64) (full : ¬ i < size) :
      Landing client requested size position i position
  | piece (position : Nat) (i : Int64) (last : Nat) (unfinished : i < size)
      (rest : Landing client requested size (position + client.served position requested)
        (i + Int64.ofNat (client.served position requested)) last) :
      Landing client requested size position i last

namespace Landing
variable {client : Client} {requested : Nat} {size : Int64} {position last : Nat} {i : Int64}

theorem unique {other : Nat} (first : Landing client requested size position i last)
    (second : Landing client requested size position i other) : last = other := by
  induction first with
  | done position i full =>
      cases second with
      | done => rfl
      | piece _ _ _ unfinished => exact absurd unfinished full
  | piece position i last unfinished _ ih =>
      cases second with
      | done _ _ full => exact absurd unfinished full
      | piece _ _ _ _ rest => exact ih rest

theorem le (landing : Landing client requested size position i last) : position ≤ last := by
  induction landing with
  | done => exact Nat.le_refl _
  | piece position i last _ _ ih => exact Nat.le_trans (Nat.le_add_right _ _) ih

theorem onWire (landing : Landing client requested size position i last)
    (inside : position ≤ client.wire.length) : last ≤ client.wire.length := by
  induction landing with
  | done => exact inside
  | piece position i last _ _ ih =>
      have bound := client.served_le position requested
      exact ih (by omega)

/-- While the counter does not wrap, the pieces cover what was asked for. -/
theorem covers (landing : Landing client requested size position i last)
    (inside : position ≤ client.wire.length) (nonneg : 0 ≤ i.toInt)
    (short : i.toInt + (client.wire.length - position : Nat) < 2 ^ 63) :
    size.toInt ≤ i.toInt + (last - position : Nat) := by
  induction landing with
  | done position i full =>
      rw [Int64.lt_iff_toInt_lt] at full
      omega
  | piece position i last _ rest ih =>
      have bound := client.served_le position requested
      have counted : (Int64.ofNat (client.served position requested)).toInt =
          client.served position requested := Int64.toInt_ofNat_of_lt (by omega)
      have advanced : (i + Int64.ofNat (client.served position requested)).toInt =
          i.toInt + client.served position requested := by
        rw [Int64.toInt_add, counted]
        apply Int.bmod_eq_of_le <;> omega
      have behind := rest.le
      have covered := ih (by omega) (by omega) (by omega)
      omega

/-- Where something is left to read, there is something on the wire. -/
theorem more (landing : Landing client requested size position i last) (unfinished : i < size) :
    position < client.wire.length := by
  induction landing with
  | done position i full => exact absurd unfinished full
  | piece position i last _ rest ih =>
      by_contra ended
      have bound := client.served_le position requested
      have nothing : client.served position requested = 0 := by omega
      rw [nothing] at ih
      have again := ih (by simpa using unfinished)
      omega

end Landing

/-- Both writes of a checkpoint are taken behind so many bytes. -/
def Client.Takes (client : Client) (sent : Nat) : Prop :=
  ∀ limit, client.brokenAt = some limit → sent + 6 < limit

/-- A place on the wire where the loop asks whether to go on. -/
structure Head where
  start : Nat
  /-- What the window of the scan holds. -/
  window : List UInt8
  /-- What has been taken off the budget. -/
  charged : Nat
  state : FrameSessionState
  /-- How many bytes have been written. -/
  sent : Nat

def Head.first : Head := ⟨0, List.replicate 6 0, 0, .none, 0⟩

section
variable (asm : Assembly) (client : Client)

/-- What the next batch is searched in. -/
def Head.text (head : Head) : List UInt8 := head.window ++ client.wire.drop head.start

def Head.batch (head : Head) : List UInt8 := (client.wire.drop head.start).take 6

def Head.hit (head : Head) : Prop := Hit asm.preamble.toList (head.text client)

/-- The header behind the batch. -/
def Head.holds (head : Head) (image : Image) : Prop :=
  image.toList = (client.wire.drop (head.start + 6)).take 38

/-- From one head of the loop to the next. -/
inductive Block (head : Head) : Head → Prop where
  | missed (whole : head.start + 6 ≤ client.wire.length) (miss : ¬ head.hit asm client) :
      Block head { head with
        start := head.start + 6
        window := head.batch client
        charged := head.charged + 6 }
  | rejected (image : Image) (hit : head.hit asm client) (there : head.holds client image)
      (verdict : FrameSession.checkHeader asm.toConfig (FrameHeader.decode image) = .ok false)
      (takes : client.Takes head.sent) :
      Block head
        { start := head.start + 44
          window := head.batch client
          charged := head.charged + 44
          state := .none
          sent := head.sent + 44 }
  | handled (image : Image) (hit : head.hit asm client) (there : head.holds client image)
      (verdict : FrameSession.checkHeader asm.toConfig (FrameHeader.decode image) = .ok true)
      (outcome : FrameSessionState × Nat)
      (reacts : outcome =
        FrameSession.react asm head.state (.frame (FrameHeader.decode image).signature))
      (takes : outcome.2 = 0 ∨ client.Takes head.sent) (last : Nat)
      (lands : Landing client (client.rented (head.start + 44)) (FrameHeader.decode image).dataSize
        (head.start + 44) 0 last) :
      Block head
        { start := last
          window := head.batch client
          charged := head.charged + 44 + (FrameHeader.decode image).dataSize.toInt.toNat
          state := outcome.1
          sent := head.sent + 44 * outcome.2 }

/-- The heads of the loop, from the start of the wire on. -/
def Walk (head : Head) : Prop := ReflTransGen (Block asm client) Head.first head

/-- What the reads of the next turn ask the budget to have held at the start: each push up to
the one that finds the wire at its end, and a header. -/
inductive Charges (head : Head) : Nat → Prop where
  | push (k : Nat) (low : 1 ≤ k) (high : k ≤ 6)
      (more : head.start + k ≤ client.wire.length + 1) : Charges head (head.charged + k)
  | header (whole : head.start + 6 ≤ client.wire.length) (hit : head.hit asm client) :
      Charges head (head.charged + 44)

/-- What the next turn asks it to have held. -/
inductive Asks (head : Head) : Nat → Prop where
  | read {demand : Nat} (charges : Charges asm client head demand) : Asks head demand
  | body (image : Image) (hit : head.hit asm client) (there : head.holds client image)
      (verdict : FrameSession.checkHeader asm.toConfig (FrameHeader.decode image) = .ok true) :
      Asks head (head.charged + 44 + (FrameHeader.decode image).dataSize.toInt.toNat)

end

section
variable {asm : Assembly} {client : Client} {head next : Head}

theorem Head.holds_unique {image other : Image} (first : head.holds client image)
    (second : head.holds client other) : image = other :=
  List.Vector.eq _ _ (first.trans second.symm)

theorem Head.holds_inside {image : Image} (there : head.holds client image) :
    head.start + 44 ≤ client.wire.length := by
  have length := congrArg List.length there
  rw [List.Vector.toList_length, List.length_take, List.length_drop] at length
  omega

/-- The wire decides. -/
theorem Block.unique {other : Head} (first : Block asm client head next)
    (second : Block asm client head other) : next = other := by
  cases first with
  | missed whole miss =>
      cases second with
      | missed => rfl
      | rejected _ hit | handled _ hit => exact absurd hit miss
  | rejected image hit there verdict =>
      cases second with
      | missed _ miss => exact absurd hit miss
      | rejected => rfl
      | handled image' _ there' verdict' =>
          rw [Head.holds_unique there there', verdict'] at verdict
          cases verdict
  | handled image hit there verdict outcome reacts takes last lands =>
      cases second with
      | missed _ miss => exact absurd hit miss
      | rejected image' _ there' verdict' =>
          rw [Head.holds_unique there there', verdict'] at verdict
          cases verdict
      | handled image' _ there' _ outcome' reacts' _ last' lands' =>
          cases Head.holds_unique there there'
          cases reacts
          cases reacts'
          cases lands.unique lands'
          rfl

/-- What is true of every head. -/
structure Head.Placed (client : Client) (head : Head) : Prop where
  inside : head.start ≤ client.wire.length
  six : head.window.length = 6
  paid : client.wire.length < 2 ^ 63 → head.charged ≤ head.start

theorem Head.batch_length (whole : head.start + 6 ≤ client.wire.length) :
    (head.batch client).length = 6 := by
  rw [Head.batch, List.length_take, List.length_drop]
  omega

theorem checkHeader_true {cfg : Config} {header : FrameHeader}
    (verdict : FrameSession.checkHeader cfg header = .ok true) : 0 ≤ header.dataSize.toInt := by
  unfold FrameSession.checkHeader at verdict
  split at verdict
  · cases verdict
  · split at verdict
    · cases verdict
    · rename_i nonneg
      rw [Int64.lt_iff_toInt_lt] at nonneg
      exact Int.not_lt.mp nonneg

theorem Head.Placed.step (placed : head.Placed client) (block : Block asm client head next) :
    next.Placed client := by
  cases block with
  | missed whole miss =>
      exact ⟨whole, Head.batch_length whole,
        fun short => Nat.add_le_add_right (placed.paid short) 6⟩
  | rejected image hit there =>
      have inside := Head.holds_inside there
      exact ⟨inside, Head.batch_length (by omega),
        fun short => Nat.add_le_add_right (placed.paid short) 44⟩
  | handled image hit there verdict outcome _ _ last lands =>
      have inside := Head.holds_inside there
      refine ⟨lands.onWire inside, Head.batch_length (by omega), fun short => ?_⟩
      have paid := placed.paid short
      have behind := lands.le
      have nonneg := checkHeader_true verdict
      have covered := lands.covers inside (by decide) (by rw [Int64.toInt_zero]; omega)
      rw [Int64.toInt_zero] at covered
      show _ + 44 + _ ≤ last
      omega

theorem Block.whole (block : Block asm client head next) :
    head.start + 6 ≤ client.wire.length := by
  cases block with
  | missed whole => exact whole
  | rejected _ _ there | handled _ _ there =>
      have inside := Head.holds_inside there
      omega

/-- What a block charges is the most that is asked for in front of it. -/
theorem Block.asks (block : Block asm client head next) : Asks asm client head next.charged := by
  have whole := block.whole
  cases block with
  | missed => exact Asks.read (Charges.push 6 (by decide) (by decide) (by omega))
  | rejected _ hit => exact Asks.read (Charges.header whole hit)
  | handled image hit there verdict => exact Asks.body image hit there verdict

theorem Block.onward (block : Block asm client head next) : head.start + 6 ≤ next.start := by
  cases block with
  | missed => exact Nat.le_refl _
  | rejected => exact Nat.add_le_add_left (by decide) _
  | handled _ _ _ _ _ _ _ last lands =>
      have behind := lands.le
      show _ ≤ last
      omega

/-- Behind a frame at least its header has been passed. -/
theorem Block.behind (block : Block asm client head next) (hit : head.hit asm client) :
    head.start + 44 ≤ next.start := by
  cases block with
  | missed _ miss => exact absurd hit miss
  | rejected => exact Nat.le_refl _
  | handled _ _ _ _ _ _ _ last lands => exact lands.le

/-- No more is charged than the wire has bytes, and one for the push that finds none. -/
theorem Head.Placed.charges {demand : Nat} (placed : head.Placed client)
    (short : client.wire.length < 2 ^ 62) (charges : Charges asm client head demand) :
    demand ≤ client.wire.length + 39 := by
  have paid := placed.paid (by omega)
  have inside := placed.inside
  cases charges with
  | push k low high more => omega
  | header whole hit => omega

/-- In front of a block, the wire has all that is asked for, but for what is in front. -/
theorem Head.Placed.asks {demand : Nat} (placed : head.Placed client)
    (short : client.wire.length < 2 ^ 62) (block : Block asm client head next)
    (asks : Asks asm client head demand) : demand ≤ client.wire.length + 39 := by
  have after := placed.step block
  cases asks with
  | read charges => exact placed.charges short charges
  | body image hit there verdict =>
      cases block with
      | missed _ miss => exact absurd hit miss
      | rejected other _ there' verdict' =>
          rw [Head.holds_unique there there', verdict'] at verdict
          cases verdict
      | handled other _ there' _ _ _ _ last lands =>
          cases Head.holds_unique there there'
          have paid := after.paid (by omega)
          have inside := after.inside
          simp only at paid inside
          omega

theorem Head.first_placed (client : Client) : Head.first.Placed client :=
  ⟨Nat.zero_le _, rfl, fun _ => Nat.le_refl _⟩

theorem Head.Placed.steps (placed : head.Placed client)
    (onward : ReflTransGen (Block asm client) head next) : next.Placed client := by
  induction onward with
  | refl => exact placed
  | tail _ block ih => exact ih.step block

theorem Walk.placed (walk : Walk asm client head) : head.Placed client :=
  (Head.first_placed client).steps walk

end
end Wsac.Service
