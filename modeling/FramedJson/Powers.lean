/-!
Powers of whole numbers are those of the core library, so that a definition means the same whatever
else is imported.
-/

attribute [instance (20000), default_instance (20000)] instPowNat
