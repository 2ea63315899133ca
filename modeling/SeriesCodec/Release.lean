/-!
# Release
-/

namespace SeriesCodec

def release : String := "1.0.0"

end SeriesCodec
