import SeriesCodec.GroupVarint.Fault
import SeriesCodec.Json.Fault

/-!
# Errors of the codec

Every operation of the codec either succeeds or names one cause of failure.
The wording of a cause is fixed by `CodecError.message`.
-/

namespace SeriesCodec

inductive ConfigFault where
  | document (fault : Json.Fault)
  /-- The options speak of elements of another width than the series holds. -/
  | widthMismatch (declared held : ElementWidth)
  | optionsMissing
  /-- The caller gave no memory for a source that is not empty. -/
  | sourceMissing
  /-- The caller gave no memory for a destination that is not empty. -/
  | destinationMissing
  deriving DecidableEq, Repr

namespace ConfigFault

def message : ConfigFault → String
  | document fault => fault.message
  | widthMismatch declared held =>
      "options declare " ++ declared.describe ++
        " elements but the slice holds " ++ held.describe ++ " elements"
  | optionsMissing => "options pointer is null"
  | sourceMissing => "source pointer is null"
  | destinationMissing => "destination pointer is null"

end ConfigFault

inductive CodecError where
  | unsupportedWidth (width : UInt32)
  /-- A byte string is not a whole number of elements. -/
  | partialElement (width length : Nat)
  | lengthFieldOverflow (length : Nat)
  | invalidConfig (fault : ConfigFault)
  | destinationTooSmall (required capacity : Nat)
  | unsupportedVersion (version : UInt32)
  | packedStream (fault : GroupVarint.Fault)
  /-- A sized payload is too short to hold its length field. -/
  | lengthFieldMissing (available : Nat)
  | secondaryCompressor (reason : String)
  deriving DecidableEq, Repr

namespace CodecError

def message : CodecError → String
  | unsupportedWidth width => ElementWidth.unsupportedMessage width
  | partialElement width length =>
      "Buffer length mismatch: expected a multiple of " ++ toString width ++
        ", got " ++ toString length
  | lengthFieldOverflow length =>
      "Input of " ++ toString length ++
        " bytes is too large for the sized length field"
  | invalidConfig fault => "Invalid configuration: " ++ fault.message
  | destinationTooSmall required capacity =>
      "Destination too small: " ++ toString required ++
        " bytes required, capacity is " ++ toString capacity
  | unsupportedVersion version =>
      "Unsupported format version: " ++ toString version.toNat
  | packedStream fault => fault.message
  | lengthFieldMissing available =>
      "Sized payload of " ++ toString available ++
        " bytes is too short to hold the length field"
  | secondaryCompressor reason => "Secondary compressor failed: " ++ reason

end CodecError

end SeriesCodec
