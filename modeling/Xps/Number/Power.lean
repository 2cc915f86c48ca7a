/-!
# Powers

Powers of whole numbers are the ones of the core library, also where another library has powers of
its own.
-/

attribute [default_instance 20000, instance (1100)] instPowNat
