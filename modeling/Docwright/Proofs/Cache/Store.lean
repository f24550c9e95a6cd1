import Docwright.Cache
import Docwright.Proofs.Json.Fields

/-!
# Keeping texts in a cache

Keeping a text under a key changes what is found under that key and nothing else; no key is ever
given up.
-/

namespace Docwright.Cache

variable (c : Cache) (key body : String) (moment : Moment)

/-- **A text that is kept is found under its key**, and everything else as before. -/
theorem get?_store (k : String) :
    (c.store key body moment).get? k = if k = key then some body else c.get? k := by
  rw [get?, store, Json.lookup_setField]
  by_cases hk : k = key
  · rw [if_pos hk, if_pos hk]
    rfl
  · rw [if_neg hk, if_neg hk]
    rfl

theorem contains_store (k : String) :
    (c.store key body moment).contains k = (k == key || c.contains k) := by
  rw [contains, store, Json.lookup_setField]
  by_cases hk : k = key
  · rw [if_pos hk, hk, beq_self_eq_true, Bool.true_or]
    rfl
  · rw [if_neg hk, beq_eq_false_iff_ne.2 hk, Bool.false_or]
    rfl

end Docwright.Cache
