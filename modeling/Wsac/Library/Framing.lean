import Wsac.Library.Occurrence

/-! # Streams of frames

A stream is the concatenation of the byte strings of its frames.  `places` gives
every frame the offset at which it starts; `OnlyAtStarts` says that a pattern
occurs in the stream nowhere else than where a frame starts. -/

set_option autoImplicit false

namespace Wsac.Library

universe u v
variable {α : Type u} {φ : Type v}

def stream (wire : φ → List α) (frames : List φ) : List α := frames.flatMap wire

def places (wire : φ → List α) : Nat → List φ → List (Nat × φ)
  | _, [] => []
  | start, frame :: rest => (start, frame) :: places wire (start + (wire frame).length) rest

def OnlyAtStarts (pattern : List α) (wire : φ → List α) (frames : List φ) : Prop :=
  ∀ offset, OccursAt pattern (stream wire frames) offset →
    offset ∈ (places wire 0 frames).map Prod.fst

variable {wire : φ → List α}

@[simp] theorem stream_nil : stream wire [] = [] := rfl

@[simp] theorem stream_cons (frame : φ) (rest : List φ) :
    stream wire (frame :: rest) = wire frame ++ stream wire rest := by
  simp [stream]

theorem stream_append (before after : List φ) :
    stream wire (before ++ after) = stream wire before ++ stream wire after := by
  simp [stream]

theorem places_append (before after : List φ) : ∀ start,
    places wire start (before ++ after) = places wire start before ++
      places wire (start + (stream wire before).length) after := by
  induction before with
  | nil => intro start; rfl
  | cons frame rest ih =>
      intro start
      simp only [List.cons_append, places, ih, stream_cons, List.length_append, Nat.add_assoc]

theorem places_shift (frames : List φ) : ∀ shift start,
    places wire (shift + start) frames =
      (places wire start frames).map fun place => (shift + place.1, place.2) := by
  induction frames with
  | nil => intro shift start; rfl
  | cons frame rest ih =>
      intro shift start
      simp only [places, List.map_cons, Nat.add_assoc, ih]

theorem le_of_mem_places (frames : List φ) : ∀ start place,
    place ∈ places wire start frames → start ≤ place.1 := by
  induction frames with
  | nil => intro start place member; simp [places] at member
  | cons frame rest ih =>
      intro start place member
      rcases List.mem_cons.mp member with rfl | later
      · exact Nat.le_refl _
      · have := ih _ place later
        omega

theorem split_of_mem_places (frames : List φ) : ∀ start place,
    place ∈ places wire start frames → ∃ before after,
      frames = before ++ place.2 :: after ∧ place.1 = start + (stream wire before).length := by
  induction frames with
  | nil => intro start place member; simp [places] at member
  | cons frame rest ih =>
      intro start place member
      rcases List.mem_cons.mp member with rfl | later
      · exact ⟨[], rest, rfl, rfl⟩
      · obtain ⟨before, after, split, exact⟩ := ih _ place later
        refine ⟨frame :: before, after, by rw [split]; rfl, ?_⟩
        rw [exact, stream_cons, List.length_append, Nat.add_assoc]

/-- The last frame ends where the stream does. -/
theorem exists_last_place (wire : φ → List α) (start : Nat) (frames : List φ)
    (nonempty : frames ≠ []) : ∃ place ∈ places wire start frames,
      place.1 + (wire place.2).length = start + (stream wire frames).length := by
  obtain ⟨before, last, rfl⟩ := (List.eq_nil_or_concat' frames).resolve_left nonempty
  refine ⟨(start + (stream wire before).length, last), ?_, ?_⟩
  · rw [places_append]
    exact List.mem_append_right _ List.mem_cons_self
  · rw [stream_append, List.length_append, stream_cons, stream_nil, List.append_nil, Nat.add_assoc]

/-- Offsets behind the end of the stream need not be looked at. -/
theorem onlyAtStarts_of_inside {pattern : List α} {frames : List φ} (nonempty : pattern ≠ [])
    (inside : ∀ offset, offset < (stream wire frames).length →
      OccursAt pattern (stream wire frames) offset → offset ∈ (places wire 0 frames).map Prod.fst) :
    OnlyAtStarts pattern wire frames := by
  intro offset occurs
  have fits := occurs.length_le nonempty
  have positive := List.length_pos_iff.mpr nonempty
  exact inside offset (by omega) occurs

/-- No occurrence begins inside the first frame, behind its start. -/
theorem OnlyAtStarts.inside {pattern : List α} {frame : φ} {rest : List φ}
    (only : OnlyAtStarts pattern wire (frame :: rest)) {offset : Nat} (positive : 0 < offset)
    (inside : offset < (wire frame).length) :
    ¬ OccursAt pattern (stream wire (frame :: rest)) offset := by
  intro occurs
  obtain ⟨place, member, exact⟩ := List.mem_map.mp (only offset occurs)
  rcases List.mem_cons.mp member with rfl | later
  · have : (0 : Nat) = offset := exact
    omega
  · have := le_of_mem_places rest _ place later
    omega

theorem OnlyAtStarts.tail {pattern : List α} {frame : φ} {rest : List φ}
    (nonempty : wire frame ≠ []) (only : OnlyAtStarts pattern wire (frame :: rest)) :
    OnlyAtStarts pattern wire rest := by
  have positive := List.length_pos_iff.mpr nonempty
  intro offset occurs
  have shifted : OccursAt pattern (stream wire (frame :: rest)) ((wire frame).length + offset) := by
    rw [stream_cons, occursAt_append_left]
    exact occurs
  obtain ⟨place, member, exact⟩ := List.mem_map.mp (only _ shifted)
  rcases List.mem_cons.mp member with rfl | later
  · have : (0 : Nat) = (wire frame).length + offset := exact
    omega
  · rw [Nat.zero_add, ← Nat.add_zero (wire frame).length, places_shift] at later
    obtain ⟨inner, innerMember, rfl⟩ := List.mem_map.mp later
    refine List.mem_map.mpr ⟨inner, innerMember, ?_⟩
    have : (wire frame).length + inner.1 = (wire frame).length + offset := exact
    omega

end Wsac.Library
