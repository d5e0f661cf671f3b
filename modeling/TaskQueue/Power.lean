/-!
# Powers

A power of a natural number or of an integer is the one of the core library, and no monoid is
needed for it where there are monoids.  This holds within the namespace of the project only; there a
numeral that is an exponent is given its type, since otherwise a default would decide which power is
meant.
-/

namespace TaskQueue

attribute [scoped instance (high)] instPowNat

end TaskQueue
