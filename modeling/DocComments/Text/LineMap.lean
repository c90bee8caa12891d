import DocComments.Text.Lines

/-!
# Line numbers

A `LineMap` records the byte offset at which every line of a text starts, and finds the line of an
offset by binary search. Lines count from one, and an offset past the end lies on the last line.

A `LineLookup` is the view of a map from an anchor further down the text: it answers for offsets
that count from the anchor. Offsets are 64-bit, and an offset too far from its anchor stops at the
greatest one.
-/

namespace DocComments

/-- The offsets at which the lines of a text start. -/
structure LineMap where
  starts : Array Nat
deriving DecidableEq, Repr

namespace LineMap

/-- The offsets right after every line break of a text that itself stands at `offset`. -/
def startsAfterBreaks (offset : Nat) : Text → List Nat
  | [] => []
  | c :: text =>
    let next := offset + c.utf8Size
    if c = '\n' then next :: startsAfterBreaks next text else startsAfterBreaks next text

/-- The first line starts at offset zero, every other one right after a line break. -/
def ofText (text : Text) : LineMap := ⟨(0 :: startsAfterBreaks 0 text).toArray⟩

/-- The line map of a source. -/
def ofString (source : String) : LineMap := ofText source.toList

/-- The number of lines. -/
def lineCount (map : LineMap) : Nat := map.starts.size

/-- The least index of `low ≤ i < high` at which `holds` fails, or `high`, provided that `holds`
never fails before it holds. -/
def partitionPoint (holds : Nat → Bool) (low high : Nat) : Nat :=
  if low < high then
    let middle := (low + high) / 2
    if holds middle then partitionPoint holds (middle + 1) high
    else partitionPoint holds low middle
  else low
termination_by high - low

/-- The number of the line that holds the byte at `offset`. -/
def lineAt (map : LineMap) (offset : Nat) : Nat :=
  partitionPoint (fun i => map.starts.getD i 0 ≤ offset) 0 map.starts.size

end LineMap

/-- The greatest offset, at which additions stop. -/
def maxOffset : Nat := 0xFFFFFFFFFFFFFFFF

/-- A line map seen from `anchor`: offsets count from there. -/
structure LineLookup where
  map : LineMap
  anchor : Nat
deriving DecidableEq, Repr

/-- The number of the line at `offset` bytes after the anchor. -/
def LineLookup.lineAt (lookup : LineLookup) (offset : Nat) : Nat :=
  lookup.map.lineAt (min (lookup.anchor + offset) maxOffset)

end DocComments
