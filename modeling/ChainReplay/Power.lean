/-! Powers of numbers are the computable ones of the core library in every module, also where the
powers of monoids are known.
-/

attribute [instance (high)] instPowNat
attribute [default_instance 20000] instPowNat
