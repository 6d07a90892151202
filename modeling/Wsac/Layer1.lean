import Wsac.Library.Latch

/-! # What layer 1 sees of a frame

Both programs keep one flag, which a valid checkpoint sets and a header that
fails validation resets: `Synced` is that flag read off the history. -/

set_option autoImplicit false

namespace Wsac.Layer1

open Library

/-- A header that failed validation, or the signature of one that passed. -/
inductive Received where
  | broken
  | frame (sig : UInt16)
deriving DecidableEq

/-- A checkpoint has come since the last header that failed validation, or since the
start if there was none. -/
def Synced (checkpoint : UInt16) (inputs : List Received) : Prop :=
  Latched (· = .frame checkpoint) (· = .broken) inputs

instance (checkpoint : UInt16) (inputs : List Received) : Decidable (Synced checkpoint inputs) :=
  inferInstanceAs (Decidable (Latched _ _ inputs))

theorem not_synced_nil (checkpoint : UInt16) : ¬ Synced checkpoint [] := not_latched_nil

theorem synced_append (checkpoint : UInt16) (inputs : List Received) (received : Received) :
    Synced checkpoint (inputs ++ [received]) ↔
      received = .frame checkpoint ∨ (received ≠ .broken ∧ Synced checkpoint inputs) :=
  latched_append_singleton inputs received

end Wsac.Layer1
