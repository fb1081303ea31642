import Mathlib.Data.List.Infix

/-!
# Fields that are ended by a delimiter

Fields in which the delimiter does not occur are read back from what they are joined to, also if
the last ones are missing.
-/

namespace Delimited

variable {α β : Type*} {sep : β}

/-- The fields `f a` of some `a`, each with the delimiter behind it. -/
def join (sep : β) (f : α → List β) (as : List α) : List β := as.flatMap fun a => f a ++ [sep]

@[simp] lemma join_nil (f : α → List β) : join sep f [] = [] := rfl

end Delimited
