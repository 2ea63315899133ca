import SeriesCodec.Word

/-!
# Zigzag

The signed readings `0, -1, 1, -2, 2, …` of words become the unsigned readings
`0, 1, 2, 3, 4, …`, so a word close to zero on either side has few significant
bytes.  Both directions use shifts and exclusive or at the width of the word.
-/

namespace SeriesCodec

namespace ZigZag

variable {width : ElementWidth}

/-- The word whose unsigned reading numbers the signed reading of `word`. -/
def encode (word : Word width) : Word width :=
  (word <<< 1) ^^^ word.sshiftRight (width.bits - 1)

def decode (word : Word width) : Word width :=
  (word >>> 1) ^^^ (0 - (word &&& 1))

end ZigZag

end SeriesCodec
