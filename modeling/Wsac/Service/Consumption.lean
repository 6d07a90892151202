import Wsac.Service.Budget

/-! # What `ReadAsync` and `SkipAsync` take off the pipe

Both ask the pipe for a whole rented buffer, whatever is left of `size`, so they
end at the first boundary between two pieces at or behind the end: they take
exactly `size` bytes when, and only when, a piece ends there. -/

set_option autoImplicit false

namespace Wsac.Service

open Library Library.Exec

namespace PipeReader
section
variable (client : Client)

/-- An admitted charge is taken off `Available` of the reader itself. -/
theorem shrinkAvailable_available {size : Int64} {reader : PipeReader}
    (admitted : (reader.shrinkAvailable size).2 = true) :
    (reader.shrinkAvailable size).1.available = reader.available - size := by
  cases reader with
  | root available => rfl
  | child available parent =>
      cases charged : parent.shrinkAvailable size with
      | mk parent' within =>
          cases within with
          | false => simp [shrinkAvailable, charged] at admitted
          | true =>
              simp only [shrinkAvailable, charged]
              rfl

theorem charge_available {size : Int64} {world after : World} (nonneg : 0 ≤ size.toInt)
    (within : size ≤ world.reader.available) (ran : (charge size).run world = .ok () after) :
    after.position = world.position ∧
      world.reader.available.toInt - after.reader.available.toInt = size.toInt := by
  obtain ⟨afterIs, admitted⟩ := charge_ok ran
  rw [Int64.le_iff_toInt_le] at within
  have upper := world.reader.available.toInt_lt
  subst afterIs
  refine ⟨rfl, ?_⟩
  show _ - (world.reader.shrinkAvailable size).1.available.toInt = _
  rw [shrinkAvailable_available admitted, Int64.toInt_sub, Int.bmod_eq_of_le (by omega) (by omega)]
  omega

end
end PipeReader

/-- The next `size` bytes are gone, no more, and `Available` says so. -/
structure Exact (size : Int64) (before after : World) : Prop where
  position : (after.position : Int) = before.position + size.toInt
  available : before.reader.available.toInt - after.reader.available.toInt =
    after.position - before.position

namespace PipeReader
section
variable (client : Client)

theorem exact_iff {size : Int64} {world charged after : World} {taken asked : Nat}
    (paid : charged.position = world.position ∧
      world.reader.available.toInt - charged.reader.available.toInt = size.toInt)
    (moved : after = charged.seek (charged.position + taken) asked charged.reader) :
    Exact size world after ↔ (taken : Int) = size.toInt := by
  obtain ⟨same, decrease⟩ := paid
  subst moved
  constructor
  · intro exact_
    have position := exact_.position
    simp only [World.seek, same] at position
    omega
  · intro all
    refine ⟨?_, ?_⟩ <;> simp only [World.seek, same] <;> omega

/-- With the bytes on the wire, an admitted read that nobody cancels completes. -/
theorem completes (calm : client.cancelAt = none) {size : Int64} {world : World}
    (nonneg : 0 ≤ size.toInt) (admitted : (world.reader.shrinkAvailable size).2 = true)
    (enough : world.position + size.toInt.toNat ≤ client.wire.length)
    (short : client.wire.length - world.position < 2 ^ 63) :
    (∃ stream after, (readAsync client size).run world = .ok stream after) ∧
      ∃ after, (skipAsync client size).run world = .ok () after := by
  obtain ⟨charged, chargedIs⟩ : ∃ charged, charged = (world.reader.shrinkAvailable size).1 :=
    ⟨_, rfl⟩
  have paid : (charge size).run world = .ok () (world.move world.position charged) := by
    rw [charge, run_get_bind, chargedIs]
    simp only [admitted]
    rfl
  obtain ⟨last, stream, ran, _⟩ := readAsyncInternal_run client calm size nonneg
    (world.move world.position charged) (world.position + size.toInt.toNat)
    (by rw [move_position]; omega) enough fun _ => short
  constructor
  · refine ⟨stream, world.move last charged, ?_⟩
    unfold readAsync
    rw [run_bind_ok paid, ran]
    rfl
  · refine ⟨world.move last charged, ?_⟩
    unfold skipAsync
    rw [run_bind_ok paid, run_bind_ok ran]
    rfl

/-- A read or a skip that completes has taken exactly what it has charged if and only
if one of the pieces it gets ends there; with the bytes on the wire it does complete. -/
theorem consumption_iff (size : Int64) (world : World) (nonneg : 0 ≤ size.toInt)
    (within : size ≤ world.reader.available) :
    let boundary := Pieces client (client.rented world.position) world.position
      (world.position + size.toInt.toNat)
    (∀ stream after, (readAsync client size).run world = .ok stream after →
      (Exact size world after ∧
        stream = (client.wire.drop world.position).take size.toInt.toNat ↔ boundary)) ∧
    (∀ after, (skipAsync client size).run world = .ok () after →
      (Exact size world after ↔ boundary)) ∧
    (client.cancelAt = none → (world.reader.shrinkAvailable size).2 = true →
      world.position + size.toInt.toNat ≤ client.wire.length →
      client.wire.length - world.position < 2 ^ 63 →
      (∃ stream after, (readAsync client size).run world = .ok stream after) ∧
        ∃ after, (skipAsync client size).run world = .ok () after) := by
  intro boundary
  have one : ∀ {stream : List UInt8} {charged after : World},
      (charge size).run world = .ok () charged →
      (readAsyncInternal client size).run charged = .ok stream after →
      (Exact size world after ↔ boundary) ∧
        (boundary → stream = (client.wire.drop world.position).take size.toInt.toNat) := by
    intro stream charged after paid ran
    have decrease := charge_available nonneg within paid
    obtain ⟨taken, asked, moved, content, met⟩ := readAsyncInternal_ok client nonneg ran
    rw [decrease.1] at content met
    refine ⟨(exact_iff decrease moved).trans met, fun pieces => ?_⟩
    rw [content, ← met.mpr pieces, Int.toNat_natCast]
  refine ⟨?_, ?_, fun calm admitted => completes client calm nonneg admitted⟩
  · intro stream after ran
    obtain ⟨_, charged, paid, ran⟩ := run_bind_eq_ok.mp ran
    obtain ⟨met, content⟩ := one paid ran
    exact ⟨fun all => met.mp all.1, fun pieces => ⟨met.mpr pieces, content pieces⟩⟩
  · intro after ran
    obtain ⟨_, charged, paid, ran⟩ := run_bind_eq_ok.mp ran
    obtain ⟨stream, last, ran, done⟩ := run_bind_eq_ok.mp ran
    cases done
    exact (one paid ran).1

end
end PipeReader

namespace Sample

/-- Two bytes wait in the pipe. -/
def twoWaiting : Client := Client.waiting [1, 2] Wsac.Sample.nonce

/-- `SkipAsync(2)` takes both at once. -/
theorem consumption_iff_both :
    Exact 2 (World.start PipeReader.new)
        (finalState ((PipeReader.skipAsync twoWaiting 2).run (World.start PipeReader.new))) ↔
      Pieces twoWaiting 8192 0 2 :=
  (PipeReader.consumption_iff twoWaiting 2 (World.start PipeReader.new) (by decide)
    (by decide)).2.1 _ (eq_ok_of_succeeded (by decide))

/-- Asked for one byte, `ReadAsync` takes both. -/
theorem takes_both :
    ¬ ∀ (client : Client) (size : Int64) (world after : World) (stream : List UInt8),
      0 ≤ size.toInt → size ≤ world.reader.available →
      world.position + size.toInt.toNat ≤ client.wire.length →
      (PipeReader.readAsync client size).run world = .ok stream after →
      Exact size world after := by
  intro claimed
  obtain ⟨⟨stream, after, ran⟩, _⟩ : (∃ stream after,
      (PipeReader.readAsync twoWaiting 1).run (World.start PipeReader.new) = .ok stream after) ∧
        ∃ after, (PipeReader.skipAsync twoWaiting 1).run (World.start PipeReader.new) =
          .ok () after :=
    PipeReader.completes twoWaiting rfl (by decide) (by decide) (by decide) (by decide)
  have position := (claimed twoWaiting 1 _ after stream (by decide) (by decide) (by decide)
    ran).position
  have both : (finalState ((PipeReader.readAsync twoWaiting 1).run
      (World.start PipeReader.new))).position = 2 := by decide +kernel
  rw [ran, finalState_ok] at both
  rw [both] at position
  exact absurd position (by decide)

end Sample
end Wsac.Service
