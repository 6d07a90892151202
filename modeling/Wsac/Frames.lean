import Wsac.Config
import Wsac.Library.Framing

/-! # Frames that are all header

A checkpoint is a preamble and a header whose size is zero.  `framed` puts the preamble in
front of a header's image; a stream of such frames has one in every 44 bytes. -/

set_option autoImplicit false

namespace Wsac

open Library

def framed (cfg : Config) (image : Image) : List UInt8 := cfg.preamble.toList ++ image.toList

variable {cfg : Config}

@[simp] theorem framed_length (image : Image) : (framed cfg image).length = 44 := by
  rw [framed, List.length_append, List.Vector.toList_length, List.Vector.toList_length]

theorem framed_preamble (image : Image) (rest : List UInt8) :
    cfg.preamble.toList <+: framed cfg image ++ rest := by
  rw [framed, List.append_assoc]
  exact List.prefix_append _ _

/-- The first preamble in front of which nothing stands. -/
theorem framed_first (image : Image) (rest : List UInt8) :
    FirstEnd cfg.preamble.toList (framed cfg image ++ rest) 6 := by
  have occurs : OccursAt cfg.preamble.toList (framed cfg image ++ rest) 0 := framed_preamble _ _
  have first := firstEnd_of_start cfg.preamble_nonempty occurs
    (fun earlier before => absurd before (Nat.not_lt_zero _))
  rwa [List.Vector.toList_length] at first

/-- The 38 bytes behind that preamble. -/
theorem framed_image (image : Image) (rest : List UInt8) :
    ((framed cfg image ++ rest).drop 6).take 38 = image.toList := by
  rw [framed, List.append_assoc, List.drop_left' (List.Vector.toList_length _),
    List.take_left' (List.Vector.toList_length _)]

theorem framed_behind (image : Image) (rest : List UInt8) :
    (framed cfg image ++ rest).drop 44 = rest := List.drop_left' (framed_length image)

theorem stream_framed_length (images : List Image) :
    (stream (framed cfg) images).length = 44 * images.length := by
  induction images with
  | nil => rfl
  | cons image rest ih =>
      rw [stream_cons, List.length_append, framed_length, ih, List.length_cons]
      omega

/-- Less than a frame shows no preamble with a header behind it. -/
theorem short_tail {tail : List UInt8} (short : tail.length < 44) {stop : Nat}
    (first : FirstEnd cfg.preamble.toList tail stop) : tail.length < stop + 38 := by
  have long := first.1.length_le
  rw [List.Vector.toList_length] at long
  omega

end Wsac
