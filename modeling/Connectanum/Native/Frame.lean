import Connectanum.Lib.Checks
import Mathlib.Algebra.Order.Ring.Int

/-!
# Native — Frame

A received frame of the native transport (`RawFrame`): one buffer, or the segments in which the
bytes came in.  A segmented frame is read through cursors of its own, byte by byte (`readByte`) and
range by range (`sliceOrCopy`).

`RawFrame.Same` says that two frames answer every read alike; `same_intoBytes`: a frame and its
bytes in one buffer do.
-/

namespace Connectanum

namespace Wamp

abbrev Bytes := List UInt8

inductive Serializer where
  | json
  | messagePack
  | cbor
  | ubjson
  | flatbuffers
  deriving DecidableEq

inductive ParseError where
  | unsupportedSerializer (serializer : Serializer)
  | deserialize (message : String)
  | expectedArray
  | missingElement (label : String)
  | expectedIdentifier (label : String)
  | expectedString (label : String)
  | expectedMap (label : String)
  | expectedList (label : String)
  | payloadEncode (message : String)
  deriving DecidableEq

/-- `Range<usize>`. -/
structure Range where
  start : Nat
  stop : Nat
  deriving DecidableEq

inductive RawFrame where
  | contiguous (bytes : Bytes)
  | segmented (segments : List Bytes) (len : Nat) (sized : len = (segments.map List.length).sum)

namespace RawFrame

def fromSegments (segments : List Bytes) : RawFrame := .segmented segments _ rfl

def len : RawFrame → Nat
  | contiguous bytes => bytes.length
  | segmented _ len _ => len

def asContiguous : RawFrame → Option Bytes
  | contiguous bytes => some bytes
  | segmented _ _ _ => none

def intoBytes : RawFrame → Bytes
  | contiguous bytes => bytes
  | segmented segments _ _ => segments.flatten

/-- The loop of `read_byte` over the segments. -/
def segmentByte : List Bytes → Nat → Except ParseError UInt8
  | [], _ => .error (.deserialize "unexpected end of message data")
  | segment :: rest, offset =>
      match segment[offset]? with
      | some byte => .ok byte
      | none => segmentByte rest (offset - segment.length)

def readByte (frame : RawFrame) (index : Nat) : Except ParseError UInt8 :=
  if frame.len ≤ index then .error (.deserialize "unexpected end of message data")
  else
    match frame with
    | contiguous bytes =>
        match bytes[index]? with
        | some byte => .ok byte
        | none => .error (.deserialize "unexpected end of message data")
    | segmented segments _ _ => segmentByte segments index

/-- `bytes.slice(range)`. -/
def slice (bytes : Bytes) (start stop : Nat) : Bytes := (bytes.drop start).take (stop - start)

/-- The first loop of `slice_or_copy`: the segment that holds the whole range. -/
def segmentSlice (range : Range) : List Bytes → Nat → Option Bytes
  | [], _ => none
  | segment :: rest, absolute =>
      let segmentEnd := absolute + segment.length
      if absolute ≤ range.start ∧ range.stop ≤ segmentEnd then
        some (slice segment (range.start - absolute) (range.stop - absolute))
      else segmentSlice range rest segmentEnd

/-- The second loop of `slice_or_copy`: what each segment has of the range. -/
def segmentCopy (range : Range) : List Bytes → Nat → Bytes
  | [], _ => []
  | segment :: rest, absolute =>
      let segmentEnd := absolute + segment.length
      let start := max range.start absolute
      let stop := min range.stop segmentEnd
      let copied := if start < stop then slice segment (start - absolute) (stop - absolute) else []
      if stop = range.stop then copied else copied ++ segmentCopy range rest segmentEnd

def sliceOrCopy (frame : RawFrame) (range : Range) : Except ParseError Bytes :=
  if frame.len < range.stop then .error (.deserialize "payload range exceeds message bounds")
  else
    match frame with
    | contiguous bytes => .ok (slice bytes range.start range.stop)
    | segmented segments _ _ =>
        match segmentSlice range segments 0 with
        | some bytes => .ok bytes
        | none => .ok (segmentCopy range segments 0)

/-! ### Segments and one buffer -/

/-- The frames answer every read alike. -/
structure Same (f g : RawFrame) : Prop where
  len : f.len = g.len
  readByte : ∀ index, f.readByte index = g.readByte index
  sliceOrCopy : ∀ range, f.sliceOrCopy range = g.sliceOrCopy range

theorem segmentByte_eq (segments : List Bytes) (offset : Nat) :
    segmentByte segments offset =
      match segments.flatten[offset]? with
      | some byte => .ok byte
      | none => .error (.deserialize "unexpected end of message data") := by
  induction segments generalizing offset with
  | nil => rfl
  | cons segment rest ih =>
      rw [segmentByte, List.flatten_cons]
      by_cases h : offset < segment.length
      · rw [List.getElem?_append_left h, List.getElem?_eq_getElem h]
      · rw [Nat.not_lt] at h
        rw [List.getElem?_append_right h, List.getElem?_eq_none h]
        exact ih (offset - segment.length)

theorem slice_append_left {a b : Bytes} {start stop : Nat} (h : stop ≤ a.length) :
    slice (a ++ b) start stop = slice a start stop := by
  unfold slice
  by_cases hs : start ≤ a.length
  · rw [List.drop_append_of_le_length hs, List.take_append_of_le_length]
    rw [List.length_drop]
    omega
  · have : stop - start = 0 := by omega
    rw [this, List.take_zero, List.take_zero]

theorem slice_append_right {a b : Bytes} {start stop : Nat} (h : a.length ≤ start) :
    slice (a ++ b) start stop = slice b (start - a.length) (stop - a.length) := by
  unfold slice
  rw [List.drop_append, List.drop_eq_nil_of_le h, List.nil_append]
  congr 1
  omega

theorem slice_append_across {a b : Bytes} {start stop : Nat} (h : start ≤ a.length)
    (h' : a.length ≤ stop) :
    slice (a ++ b) start stop = slice a start a.length ++ slice b 0 (stop - a.length) := by
  unfold slice
  rw [List.drop_append_of_le_length h, List.take_append, List.length_drop]
  congr 1
  · rw [List.take_of_length_le (by rw [List.length_drop]; omega),
      List.take_of_length_le (Nat.le_of_eq List.length_drop)]
  · rw [List.drop_zero]
    congr 1
    omega

theorem slice_eq_nil {bytes : Bytes} {start stop : Nat} (h : stop ≤ start) :
    slice bytes start stop = [] := by
  rw [slice, Nat.sub_eq_zero_of_le h, List.take_zero]

/-- A segment that holds the range holds what the whole frame has there. -/
theorem segmentSlice_eq {range : Range} {segments : List Bytes} {absolute : Nat} {bytes : Bytes}
    (h : segmentSlice range segments absolute = some bytes) :
    absolute ≤ range.start ∧
      bytes = slice segments.flatten (range.start - absolute) (range.stop - absolute) := by
  induction segments generalizing absolute with
  | nil => cases h
  | cons segment rest ih =>
      simp only [segmentSlice] at h
      rw [List.flatten_cons]
      split at h
      · next hin =>
        cases h
        exact ⟨hin.1, (slice_append_left (by omega)).symm⟩
      · obtain ⟨hstart, rfl⟩ := ih h
        refine ⟨by omega, ?_⟩
        rw [slice_append_right (by omega), Nat.sub_sub, Nat.sub_sub]

theorem segmentCopy_eq (range : Range) (segments : List Bytes) (absolute : Nat) :
    segmentCopy range segments absolute =
      slice segments.flatten (range.start - absolute) (range.stop - absolute) := by
  induction segments generalizing absolute with
  | nil => simp [segmentCopy, slice]
  | cons segment rest ih =>
      have hstart : max range.start absolute - absolute = range.start - absolute := by omega
      rw [List.flatten_cons]
      simp only [segmentCopy]
      split
      · -- the range ends in this segment
        next hlast =>
        rw [slice_append_left (by omega), hstart, hlast]
        split
        · rfl
        · rw [slice_eq_nil (by omega)]
      · next hmore =>
        rw [ih, Nat.min_eq_right (by omega), Nat.add_sub_cancel_left, ← Nat.sub_sub, ← Nat.sub_sub]
        split
        · rw [hstart, slice_append_across (by omega) (by omega)]
          congr 2
          omega
        · rw [List.nil_append, slice_append_right (by omega)]

/-- **A frame reads as its bytes in one buffer.** -/
theorem same_intoBytes (frame : RawFrame) : Same frame (contiguous frame.intoBytes) := by
  cases frame with
  | contiguous bytes => exact ⟨rfl, fun _ => rfl, fun _ => rfl⟩
  | segmented segments len sized =>
      have hlen : len = segments.flatten.length := by rw [sized, List.length_flatten]
      refine ⟨hlen, fun index => ?_, fun range => ?_⟩
      · simp only [readByte, RawFrame.len, intoBytes, hlen, segmentByte_eq]
        rfl
      · have hread : (match segmentSlice range segments 0 with
            | some bytes => Except.ok bytes
            | none => .ok (segmentCopy range segments 0)) =
            (.ok (slice segments.flatten range.start range.stop) : Except ParseError Bytes) := by
          split
          · next bytes hslice => rw [(segmentSlice_eq hslice).2]; rfl
          · rw [segmentCopy_eq]; rfl
        simp only [sliceOrCopy, RawFrame.len, intoBytes, hlen, hread]
        rfl

end RawFrame

end Wamp

end Connectanum
