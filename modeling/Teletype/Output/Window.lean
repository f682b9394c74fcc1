import Teletype.Text.Search
import Teletype.Text.Utf8

/-!
# Windows on output

A window keeps the end of all output so far, up to a limit. Places in the output are counted from its
very start, so a place noted once stays right however much output follows.
-/

namespace Teletype.Output

open Text (Bytes)

/-- The end of all output so far: at most `limit` bytes, of which the first stands at `base`. -/
structure Window where
  limit : Int := 1048576
  base : Nat := 0
  data : Bytes := []
  deriving DecidableEq, Repr

namespace Window

/-- The window after more output. -/
def extend (w : Window) (chunk : Bytes) : Window :=
  let data := w.data ++ chunk
  let excess := ((data.length : Int) - w.limit).toNat
  { w with base := w.base + excess, data := data.drop excess }

/-- The place just after the last byte. -/
def position (w : Window) : Nat := w.base + w.data.length

/-- The first place of a marker at or after a place, as far as the window reaches back. -/
def find? (w : Window) (marker : Bytes) (start : Int) : Option Nat :=
  let skip := (start - w.base).toNat
  if w.data.length < skip then none
  else (Text.indexOf? marker (w.data.drop skip)).map fun i => w.base + skip + i

/-- The last `n` bytes. No bytes asked for are all of them, and a negative number of them is all but
    the first so many. -/
def tail (w : Window) (n : Int) : Bytes :=
  if 0 < n then w.data.drop (w.data.length - n.toNat) else w.data.drop (-n).toNat

end Window

end Teletype.Output
