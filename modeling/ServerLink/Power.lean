/-!
# Powers

A number to the power of a natural number is repeated multiplication, also where a library that
knows other powers is imported beside these definitions.
-/

attribute [instance (high), default_instance 20000] instPowNat
