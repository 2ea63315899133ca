import SeriesCodec.Boundary
import SeriesCodec.OneShot
import SeriesCodec.Options.Document
import SeriesCodec.Release
import SeriesCodec.Zstandard.Compressor
import SeriesCodec.Proofs.Word
import SeriesCodec.Proofs.Elements
import SeriesCodec.Proofs.GroupVarint.Extent
import SeriesCodec.Proofs.GroupVarint.Layout
import SeriesCodec.Proofs.GroupVarint.WrittenLayout
import SeriesCodec.Proofs.GroupVarint.Defects
import SeriesCodec.Proofs.Delta.Steps
import SeriesCodec.Proofs.Framed.Cursor
import SeriesCodec.Proofs.Framed.RoundTrip
import SeriesCodec.Proofs.Framed.WidthMismatch
import SeriesCodec.Proofs.Framed.Extent
import SeriesCodec.Proofs.Framed.PlainSize
import SeriesCodec.Proofs.Framed.Saturation
import SeriesCodec.Proofs.Framed.Canonical
import SeriesCodec.Proofs.Framed.Agreement
import SeriesCodec.Proofs.Framed.Allocation
import SeriesCodec.Proofs.Framed.Transparency
import SeriesCodec.Proofs.Framed.StageMismatch
import SeriesCodec.Proofs.Framed.Zeros
import SeriesCodec.Proofs.Zstandard.Ceiling
import SeriesCodec.Proofs.Zstandard.Stored
import SeriesCodec.Proofs.Boundary.Capacity
import SeriesCodec.Proofs.Boundary.SelfDescription
import SeriesCodec.Proofs.Codec.Calls
import SeriesCodec.Proofs.OneShot.Elements
import SeriesCodec.Proofs.Boundary.Refinement
import SeriesCodec.Proofs.Json.Number
import SeriesCodec.Proofs.Json.Form
import SeriesCodec.Proofs.Json.Typed
import SeriesCodec.Proofs.Options.Setting
import SeriesCodec.Proofs.Options.Document
import SeriesCodec.Proofs.Options.Members
