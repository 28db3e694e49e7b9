/-!
# Powers

Powers of numbers are those of the core library, also in modules that know the powers of algebra: so
a number means the same wherever its definition is read.
-/

attribute [instance (high)] instPowNat
attribute [default_instance high + 1] instPowNat
