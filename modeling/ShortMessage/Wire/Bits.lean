/-!
# Flags in an octet

Several flags share an octet.  A flag is named by the mask that has its bit.
-/

namespace ShortMessage.Bits

/-- The mask, if the flag is set. -/
def flag (set : Bool) (mask : UInt8) : UInt8 := if set then mask else 0

/-- Does the octet have a bit of the mask? -/
def has (b mask : UInt8) : Bool := b &&& mask != 0

end ShortMessage.Bits
