import XenBus.Foundations.CursorList
import XenBus.Foundations.Interval
import XenBus.Foundations.MachineInt
import XenBus.Status

/-!
# The range set

`range_set.c`: a set of 64-bit integers, kept as a list of ranges with a floating cursor, a count of
the ranges and of the items, and one spare list node.

`Start` and `End` of a `RANGE` are `LONGLONG`, the counts are unsigned; the arithmetic wraps as it
does in C. The functions that allocate a list node take the outcome of the allocation
(`allocate = false`: it returns `NULL`). Assertions are those of the free build, that is, none: a
function that reads the list head as a `RANGE` because its cursor is at the anchor has no result
(`none`).
-/

namespace XenBus

open MachineInt

/-- `RANGE`, without its `ListEntry`. -/
abbrev Range := IntInterval

/-- `XENBUS_RANGE_SET`: `List` with `Cursor` (`Ranges`), the counts, and whether there is a `Spare` node. -/
structure RangeSet where
  Ranges : CursorList Range
  RangeCount : ℕ
  ItemCount : ℕ
  Spare : Bool
  deriving DecidableEq, Repr

namespace RangeSet

/-- `RangeSetCreate`. -/
def rangeSetCreate : RangeSet := ⟨.empty, 0, 0, false⟩

/-- `RangeSetRemove`: the node becomes the spare one, or is freed if there is one. -/
def rangeSetRemove (rs : RangeSet) (after : Bool) : RangeSet :=
  { rs with
    Ranges := if after then rs.Ranges.removeForward else rs.Ranges.removeBackward
    RangeCount := (rs.RangeCount + 4294967295) % 4294967296
    Spare := true }

/-- `RangeSetMergeBackwards`. -/
def rangeSetMergeBackwards (rs : RangeSet) : RangeSet :=
  match rs.Ranges with
  | ⟨previous :: before, range :: rest⟩ =>
    if previous.End ≠ long64 (range.Start - 1) then rs
    else
      rangeSetRemove { rs with
        Ranges := ⟨{ previous with End := range.End } :: before,
          { range with Start := long64 (range.End + 1) } :: rest⟩ } false
  | _ => rs

/-- `RangeSetMergeForwards`. -/
def rangeSetMergeForwards (rs : RangeSet) : RangeSet :=
  match rs.Ranges with
  | ⟨before, range :: next :: rest⟩ =>
    if next.Start ≠ long64 (range.End + 1) then rs
    else
      rangeSetRemove { rs with
        Ranges := ⟨before, { range with End := long64 (range.Start - 1) } ::
          { next with Start := range.Start } :: rest⟩ } true
  | _ => rs

/-- The first loop of `RangeSetPop`: the first range, from the cursor on, with `Count` items. -/
def popFind (Count : ℕ) (before : List Range) : List Range → Option (CursorList Range)
  | [] => none
  | range :: rest =>
    if Count ≤ ulong64 (range.End + 1 - range.Start) then some ⟨before, range :: rest⟩
    else popFind Count (range :: before) rest

/-- `RangeSetPop`: the status, `*Start` and the range set after it. -/
def rangeSetPop (rs : RangeSet) (Count : ℕ) : Status × Option ℤ × RangeSet :=
  if Count = 0 then (.invalidParameter, none, rs)
  else
    match popFind Count [] rs.Ranges.toList with
    | some ⟨before, range :: rest⟩ =>
      let range' := { range with Start := long64 (range.Start + Count) }
      let rs' := { rs with
        Ranges := ⟨before, range' :: rest⟩
        ItemCount := (rs.ItemCount + (18446744073709551616 - Count)) % 18446744073709551616 }
      (.success, some range.Start,
        if range'.Start > range'.End then rangeSetRemove rs' true else rs')
    | _ => (.insufficientResources, none, rs)

/-- `RangeSetAdd`. -/
def rangeSetAdd (rs : RangeSet) (Start End : ℤ) (after allocate : Bool) : Status × RangeSet :=
  if !rs.Spare && !allocate then (.noMemory, rs)
  else
    let range : Range := ⟨Start, End⟩
    let rs' := { rs with
      Ranges := if after then rs.Ranges.insertAfter range else rs.Ranges.insertBefore range
      RangeCount := (rs.RangeCount + 1) % 4294967296
      Spare := false }
    (.success, rangeSetMergeForwards (rangeSetMergeBackwards rs'))

/-- The loop `while (Start < Range->Start)` of `RangeSetGet`, with the cursor moving to `Blink`. -/
def getBackward (Start : ℤ) : List Range → List Range → Option (CursorList Range)
  | [], _ => none
  | range :: before, rest =>
    if Start < range.Start then getBackward Start before (range :: rest)
    else some ⟨before, range :: rest⟩

/-- The loop `while (Start > Range->End)` of `RangeSetGet`, with the cursor moving to `Flink`. -/
def getForward (Start : ℤ) (before : List Range) : List Range → Option (CursorList Range)
  | [] => none
  | range :: rest =>
    if Start > range.End then getForward Start (range :: before) rest
    else some ⟨before, range :: rest⟩

/-- The search of `RangeSetGet`. -/
def getFind (Start : ℤ) : CursorList Range → Option (CursorList Range)
  | ⟨_, []⟩ => none
  | ⟨before, range :: rest⟩ =>
    if Start < range.Start then getBackward Start before (range :: rest)
    else if Start > range.End then getForward Start (range :: before) rest
    else some ⟨before, range :: rest⟩

/-- `Range->End = Start - 1` after `RangeSetAdd` has split the range: the new node is after it, and
does not merge with it, as its `Start - 1` is not `Range->End`. -/
def getTruncate (Start : ℤ) : CursorList Range → CursorList Range
  | ⟨range :: before, rest⟩ => ⟨{ range with End := long64 (Start - 1) } :: before, rest⟩
  | l => l

/-- The `done` label of `RangeSetGet`. -/
def getDone (rs : RangeSet) (Count : ℕ) : Status × RangeSet :=
  (.success, { rs with
    ItemCount := (rs.ItemCount + (18446744073709551616 - Count)) % 18446744073709551616 })

/-- `RangeSetGet` from `range`, at the cursor between `before` and `rest`, on. -/
def getFound (rs : RangeSet) (before : List Range) (range : Range) (rest : List Range)
    (Start End : ℤ) (Count : ℕ) (allocate : Bool) : Status × RangeSet :=
  if Start = range.Start ∧ End = range.End then
    getDone (rangeSetRemove { rs with
      Ranges := ⟨before, { range with Start := long64 (End + 1) } :: rest⟩ } true) Count
  else if Start = range.Start then
    getDone { rs with
      Ranges := ⟨before, { range with Start := long64 (End + 1) } :: rest⟩ } Count
  else if End = range.End then
    getDone { rs with
      Ranges := ⟨before, { range with End := long64 (Start - 1) } :: rest⟩ } Count
  else
    match rangeSetAdd { rs with Ranges := ⟨before, range :: rest⟩ } (long64 (End + 1)) range.End
        true allocate with
    | (.success, rs') => getDone { rs' with Ranges := getTruncate Start rs'.Ranges } Count
    | failed => failed

/-- `RangeSetGet`. -/
def rangeSetGet (rs : RangeSet) (Start : ℤ) (Count : ℕ) (allocate : Bool) :
    Option (Status × RangeSet) :=
  let End := long64 (Start + Count - 1)
  if Count = 0 then some (.invalidParameter, rs)
  else
    match getFind Start rs.Ranges with
    | some ⟨before, range :: rest⟩ =>
      some (getFound rs before range rest Start End Count allocate)
    | _ => none

/-- The loop of `RangeSetAddAfter`: forward to the first range above, or to the anchor. -/
def addAfterFind (Start : ℤ) (before : List Range) : List Range → CursorList Range
  | [] => ⟨before, []⟩
  | range :: rest =>
    if Start < range.Start then ⟨before, range :: rest⟩
    else addAfterFind Start (range :: before) rest

/-- `RangeSetAddAfter`, with the range at the cursor. -/
def rangeSetAddAfter (rs : RangeSet) (range : Range) (rest : List Range) (Start End : ℤ)
    (allocate : Bool) : Status × RangeSet :=
  rangeSetAdd { rs with Ranges := addAfterFind Start (range :: rs.Ranges.Before) rest } Start End
    false allocate

/-- The loop of `RangeSetAddBefore`: backward to the first range below, or to the anchor. -/
def addBeforeFind (End : ℤ) (rest : List Range) : List Range → CursorList Range
  | [] => ⟨rest.reverse, []⟩
  | range :: before =>
    if End > range.End then ⟨before, range :: rest⟩
    else addBeforeFind End (range :: rest) before

/-- `RangeSetAddBefore`. -/
def rangeSetAddBefore (rs : RangeSet) (Start End : ℤ) (allocate : Bool) : Status × RangeSet :=
  rangeSetAdd { rs with Ranges := addBeforeFind End rs.Ranges.After rs.Ranges.Before } Start End
    true allocate

/-- The end of `RangeSetPut`: the item count is adjusted unless `RangeSetAdd` failed. -/
def putDone (Count : ℕ) : Status × RangeSet → Status × RangeSet
  | (.success, rs) =>
    (.success, { rs with ItemCount := (rs.ItemCount + Count) % 18446744073709551616 })
  | failed => failed

/-- `RangeSetPut`. -/
def rangeSetPut (rs : RangeSet) (Start : ℤ) (Count : ℕ) (allocate : Bool) :
    Option (Status × RangeSet) :=
  let End := long64 (Start + Count - 1)
  if Count = 0 then some (.invalidParameter, rs)
  else if rs.Ranges.toList = [] then some (putDone Count (rangeSetAdd rs Start End true allocate))
  else
    match rs.Ranges.After with
    | [] => none
    | range :: rest =>
      if Start > range.End then
        some (putDone Count (rangeSetAddAfter rs range rest Start End allocate))
      else
        some (putDone Count (rangeSetAddBefore rs Start End allocate))

/-- The assertions of `RangeSetDestroy`: the list is empty, and nothing else is left in the record when
the spare node has been freed. -/
def rangeSetDestroyAsserts (rs : RangeSet) : Bool :=
  decide (rs.Ranges.toList = [] ∧ rs.RangeCount = 0 ∧ rs.ItemCount = 0)

end RangeSet

end XenBus
