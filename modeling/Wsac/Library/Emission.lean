import Wsac.Library.Framing

/-! # Output that is written frame by frame

An `Emitter` tells of every state which frames have been written in full and what the output
is.  A step `Sends` when the output grows by just the frames that it adds to the record; it
`Breaks` when a part of one more frame may have come behind them. -/

set_option autoImplicit false

namespace Wsac.Library

universe u v w

structure Emitter (σ : Type u) (φ : Type v) (α : Type w) where
  sent : σ → List φ
  output : σ → List α
  wire : φ → List α
  Genuine : φ → Prop

namespace Emitter
variable {σ : Type u} {φ : Type v} {α : Type w} (emitter : Emitter σ φ α)

def Sends (before after : σ) : Prop :=
  ∃ new, (∀ frame ∈ new, emitter.Genuine frame) ∧
    emitter.sent after = emitter.sent before ++ new ∧
    emitter.output after = emitter.output before ++ stream emitter.wire new

/-- The beginning of a frame, short of its end. -/
def Part (tail : List α) : Prop :=
  tail = [] ∨ ∃ frame, emitter.Genuine frame ∧ tail <+: emitter.wire frame ∧
    tail.length < (emitter.wire frame).length

def Breaks (before after : σ) : Prop :=
  ∃ new tail, (∀ frame ∈ new, emitter.Genuine frame) ∧ emitter.Part tail ∧
    emitter.sent after = emitter.sent before ++ new ∧
    emitter.output after = emitter.output before ++ stream emitter.wire new ++ tail

variable {emitter}

theorem Part.length_lt {tail : List α} (part : emitter.Part tail) {size : Nat} (some_ : 0 < size)
    (all : ∀ frame, (emitter.wire frame).length = size) : tail.length < size := by
  rcases part with rfl | ⟨frame, _, _, short⟩
  · exact some_
  · rwa [all] at short

theorem Sends.of_same {before after : σ} (sent : emitter.sent after = emitter.sent before)
    (output : emitter.output after = emitter.output before) : emitter.Sends before after :=
  ⟨[], by simp, by rw [sent, List.append_nil], by rw [output, stream_nil, List.append_nil]⟩

theorem Sends.refl (state : σ) : emitter.Sends state state := Sends.of_same rfl rfl

theorem Sends.trans (first second third : σ) (left : emitter.Sends first second)
    (right : emitter.Sends second third) : emitter.Sends first third := by
  obtain ⟨new, genuine, sent, output⟩ := left
  obtain ⟨new', genuine', sent', output'⟩ := right
  refine ⟨new ++ new', fun frame member => ?_, ?_, ?_⟩
  · rcases List.mem_append.mp member with early | late
    · exact genuine frame early
    · exact genuine' frame late
  · rw [sent', sent, List.append_assoc]
  · rw [output', output, stream_append, List.append_assoc]

theorem Sends.breaks {before after : σ} (sends : emitter.Sends before after) :
    emitter.Breaks before after := by
  obtain ⟨new, genuine, sent, output⟩ := sends
  exact ⟨new, [], genuine, Or.inl rfl, sent, by rw [output, List.append_nil]⟩

/-- What breaks has sent whole frames before. -/
theorem Sends.trans_breaks (first second third : σ) (left : emitter.Sends first second)
    (right : emitter.Breaks second third) : emitter.Breaks first third := by
  obtain ⟨new, genuine, sent, output⟩ := left
  obtain ⟨new', tail, genuine', part, sent', output'⟩ := right
  refine ⟨new ++ new', tail, fun frame member => ?_, part, ?_, ?_⟩
  · rcases List.mem_append.mp member with early | late
    · exact genuine frame early
    · exact genuine' frame late
  · rw [sent', sent, List.append_assoc]
  · rw [output', output, stream_append, List.append_assoc, List.append_assoc, List.append_assoc,
      List.append_assoc]

variable (emitter)

/-- One frame that is written in full. -/
theorem Sends.one {before after : σ} {frame : φ} (genuine : emitter.Genuine frame)
    (sent : emitter.sent after = emitter.sent before ++ [frame])
    (output : emitter.output after = emitter.output before ++ emitter.wire frame) :
    emitter.Sends before after := by
  refine ⟨[frame], ?_, sent, ?_⟩
  · intro other member
    rw [List.mem_singleton.mp member]
    exact genuine
  · rw [output, stream_cons, stream_nil, List.append_nil]

/-- One that is not. -/
theorem Breaks.one {before after : σ} {frame : φ} {tail : List α}
    (genuine : emitter.Genuine frame) (begins : tail <+: emitter.wire frame)
    (short : tail.length < (emitter.wire frame).length)
    (sent : emitter.sent after = emitter.sent before)
    (output : emitter.output after = emitter.output before ++ tail) :
    emitter.Breaks before after := by
  refine ⟨[], tail, by simp, Or.inr ⟨frame, genuine, begins, short⟩, ?_, ?_⟩
  · rw [sent, List.append_nil]
  · rw [output, stream_nil, List.append_nil]

end Emitter

/-! ## Frames that are numbered

Every frame is made from the next of a sequence of draws. -/

section Draws
variable {φ : Type v} {α : Type w} (wire : φ → List α) (made : Nat → φ)

/-- Every draw has become a frame, and every frame is on the wire. -/
structure InStep (sent : List φ) (output : List α) (drawn : Nat) : Prop where
  frames : sent = (List.range drawn).map made
  bytes : output = stream wire sent

/-- The frame of the last draw may be missing, or its end. -/
def Torn (sent : List φ) (output : List α) (drawn : Nat) : Prop :=
  ∃ whole tail, sent = (List.range whole).map made ∧ output = stream wire sent ++ tail ∧
    ((drawn = whole ∧ tail = []) ∨ (drawn = whole + 1 ∧ tail <+: wire (made whole)))

variable {wire made} {sent : List φ} {output : List α} {drawn : Nat}

theorem InStep.start : InStep wire made [] [] 0 := ⟨rfl, rfl⟩

theorem InStep.torn (even : InStep wire made sent output drawn) :
    Torn wire made sent output drawn :=
  ⟨drawn, [], even.frames, by rw [List.append_nil]; exact even.bytes, Or.inl ⟨rfl, rfl⟩⟩

theorem InStep.next (even : InStep wire made sent output drawn) :
    InStep wire made (sent ++ [made drawn]) (output ++ wire (made drawn)) (drawn + 1) := by
  refine ⟨?_, ?_⟩
  · rw [even.frames, List.range_succ, List.map_append, List.map_singleton]
  · rw [even.bytes, stream_append, stream_cons, stream_nil, List.append_nil]

theorem InStep.tear (even : InStep wire made sent output drawn) {tail : List α}
    (begins : tail <+: wire (made drawn)) :
    Torn wire made sent (output ++ tail) (drawn + 1) :=
  ⟨drawn, tail, even.frames, by rw [even.bytes], Or.inr ⟨rfl, begins⟩⟩

/-- The output is the beginning of the frames of all draws, one behind the other. -/
theorem Torn.output_prefix (torn : Torn wire made sent output drawn) :
    output <+: stream wire ((List.range drawn).map made) := by
  obtain ⟨whole, tail, rfl, rfl, ⟨rfl, rfl⟩ | ⟨rfl, begins⟩⟩ := torn
  · rw [List.append_nil]
  · rw [List.range_succ, List.map_append, stream_append, List.map_singleton, stream_cons,
      stream_nil, List.append_nil]
    exact (List.prefix_append_right_inj _).mpr begins

theorem Torn.sent_eq (torn : Torn wire made sent output drawn) :
    sent = (List.range sent.length).map made ∧ sent.length ≤ drawn ∧ drawn ≤ sent.length + 1 := by
  obtain ⟨whole, tail, rfl, _, last⟩ := torn
  rw [List.length_map, List.length_range]
  rcases last with ⟨rfl, _⟩ | ⟨rfl, _⟩
  · exact ⟨rfl, Nat.le_refl _, Nat.le_succ _⟩
  · exact ⟨rfl, Nat.le_succ _, Nat.le_refl _⟩

theorem Torn.stream_prefix (torn : Torn wire made sent output drawn) :
    stream wire sent <+: output := by
  obtain ⟨_, tail, _, written, _⟩ := torn
  rw [written]
  exact List.prefix_append _ _

end Draws
end Wsac.Library
