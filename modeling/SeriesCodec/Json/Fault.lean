import SeriesCodec.ElementWidth
import SeriesCodec.Json.Real
import SeriesCodec.Text.Quoted

/-!
# Faults of a JSON document

A document is read from its front, and the first fault ends the reading.  A
fault is either one of syntax or one of meaning: a value of the wrong type or
range, or a field given twice.
-/

namespace SeriesCodec

namespace Json

/-- What was being read when the document ended. -/
inductive Unfinished where
  | value
  | text
  | array
  | object
  deriving DecidableEq, Repr

namespace Unfinished

def describe : Unfinished → String
  | value => "a value"
  | text => "a string"
  | array => "a list"
  | object => "an object"

end Unfinished

/-- A value as far as a type fault shows it. -/
inductive Found where
  | null
  | boolean (value : Bool)
  | integer (value : Int)
  | real (value : Binary64)
  | text (value : String)
  | array
  | object
  deriving DecidableEq, Repr

namespace Found

def describe : Found → String
  | null => "null"
  | boolean value => "boolean `" ++ (if value then "true" else "false") ++ "`"
  | integer value => "integer `" ++ toString value ++ "`"
  | real value => "floating point `" ++ realText value ++ "`"
  | text value => "string " ++ Text.quoted value
  | array => "sequence"
  | object => "map"

end Found

inductive Expected where
  | options
  | boolean
  | word
  deriving DecidableEq, Repr

namespace Expected

def describe : Expected → String
  | options => "struct CompressionOptions"
  | boolean => "a boolean"
  | word => "u32"

end Expected

inductive Fault where
  | ended (within : Unfinished)
  | expectedValue
  | expectedIdentifier
  | expectedColon
  | expectedCommaOrBracket
  | expectedCommaOrBrace
  | keyNotText
  | trailingComma
  | trailingCharacters
  | invalidNumber
  | numberOutOfRange
  | invalidEscape
  | controlCharacter
  | loneSurrogate
  | brokenSurrogatePair
  | wrongType (found : Found) (expected : Expected)
  | wrongValue (found : Found) (expected : Expected)
  | duplicateField (name : String)
  | unsupportedWidth (width : UInt32)
  deriving DecidableEq, Repr

namespace Fault

def message : Fault → String
  | ended within => "EOF while parsing " ++ within.describe
  | expectedValue => "expected value"
  | expectedIdentifier => "expected ident"
  | expectedColon => "expected `:`"
  | expectedCommaOrBracket => "expected `,` or `]`"
  | expectedCommaOrBrace => "expected `,` or `\x7d`"
  | keyNotText => "key must be a string"
  | trailingComma => "trailing comma"
  | trailingCharacters => "trailing characters"
  | invalidNumber => "invalid number"
  | numberOutOfRange => "number out of range"
  | invalidEscape => "invalid escape"
  | controlCharacter =>
      "control character (\\u0000-\\u001F) found while parsing a string"
  | loneSurrogate => "lone leading surrogate in hex escape"
  | brokenSurrogatePair => "unexpected end of hex escape"
  | wrongType found expected =>
      "invalid type: " ++ found.describe ++ ", expected " ++ expected.describe
  | wrongValue found expected =>
      "invalid value: " ++ found.describe ++ ", expected " ++ expected.describe
  | duplicateField name => "duplicate field `" ++ name ++ "`"
  | unsupportedWidth width => ElementWidth.unsupportedMessage width

end Fault

end Json

end SeriesCodec
