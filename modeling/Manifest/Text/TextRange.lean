/-!
# Ranges of text

Half-open ranges of character offsets.  A range is never reversed, so a length
is a plain difference; offsets that come from outside are checked on the way in.
-/

namespace Manifest

/-- The characters from `start` up to, and not including, `stop`. -/
structure TextRange where
  start : Nat
  stop : Nat
  start_le_stop : start ≤ stop
  deriving DecidableEq, Repr

inductive BoundsError where
  | negative
  | reversed
  deriving DecidableEq, Repr

namespace BoundsError

def message : BoundsError → String
  | .negative => "TextRange positions cannot be negative"
  | .reversed => "TextRange invariant violated: start > end"

end BoundsError

namespace TextRange

/-- The range between two offsets.  A negative offset is reported before a reversed pair. -/
def ofBounds (start stop : Int) : Except BoundsError TextRange :=
  if start < 0 ∨ stop < 0 then
    .error .negative
  else if h : start ≤ stop then
    .ok ⟨start.toNat, stop.toNat, by omega⟩
  else
    .error .reversed

def ofOffset (offset length : Int) : Except BoundsError TextRange :=
  ofBounds offset (offset + length)

def sized (start length : Nat) : TextRange :=
  ⟨start, start + length, Nat.le_add_right start length⟩

def empty (offset : Nat) : TextRange :=
  ⟨offset, offset, Nat.le_refl offset⟩

def length (range : TextRange) : Nat :=
  range.stop - range.start

def isEmpty (range : TextRange) : Bool :=
  range.start == range.stop

def contains (range : TextRange) (offset : Int) : Bool :=
  decide ((range.start : Int) ≤ offset ∧ offset < (range.stop : Int))

def cover (left right : TextRange) : TextRange where
  start := min left.start right.start
  stop := max left.stop right.stop
  start_le_stop := by
    have hleft := left.start_le_stop
    omega

def compare (left right : TextRange) : Ordering :=
  (Ord.compare left.start right.start).then (Ord.compare left.stop right.stop)

/-- The characters of `text` in the range; offsets past the end of the text hold none. -/
def slice (text : List Char) (range : TextRange) : List Char :=
  (text.drop range.start).take range.length

def render (range : TextRange) : String :=
  "TextRange(" ++ toString range.start ++ ", " ++ toString range.stop ++ ")"

def renderBounds (range : TextRange) : String :=
  "(" ++ toString range.start ++ ", " ++ toString range.stop ++ ")"

@[simp]
theorem sized_start (start length : Nat) :
    (sized start length).start = start :=
  rfl

@[simp]
theorem sized_stop (start length : Nat) :
    (sized start length).stop = start + length :=
  rfl

@[simp]
theorem length_sized (start length : Nat) :
    (sized start length).length = length := by
  simp [TextRange.length]

theorem ofBounds_natCast {start stop : Nat} (h : start ≤ stop) :
    ofBounds start stop = .ok ⟨start, stop, h⟩ := by
  have hnonneg : ¬ ((start : Int) < 0 ∨ (stop : Int) < 0) := by omega
  have hle : (start : Int) ≤ stop := by omega
  simp [ofBounds, hnonneg, hle]

end TextRange

end Manifest
