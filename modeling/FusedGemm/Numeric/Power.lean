/-!
# Powers of naturals

A power of naturals is core's own in every module of the library, also where a more general instance
is in scope, so that a definition made without one and a lemma that needs one speak of one term.
-/

namespace FusedGemm

attribute [scoped instance (high)] instPowNat

end FusedGemm
