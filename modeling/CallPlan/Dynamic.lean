/-
Values whose type is known only when the program runs.

A dynamic value is a value together with the kind that tells its type. Two of them are equal when they are of one kind
and equal as values of that type, so values of different types are never equal. The kind is fed to a hash before the
value. An auxiliary value may be dynamic: its type is made as the value's own type makes it.
-/
import CallPlan.HashFeed
import CallPlan.Registry

namespace CallPlan

structure Dynamic {κ : Type} (V : κ → Type) where
  kind : κ
  value : V kind

namespace Dynamic

variable {κ : Type} [DecidableEq κ] {V : κ → Type}

/-- the value, if it is of this kind -/
def cast? (d : Dynamic V) (k : κ) : Option (V k) := if h : d.kind = k then some (h ▸ d.value) else none

instance [∀ k, BEq (V k)] : BEq (Dynamic V) where
  beq a b := (b.cast? a.kind).any (a.value == ·)

instance [HashFeed κ] [∀ k, HashFeed (V k)] : HashFeed (Dynamic V) where
  feed d := feed d.kind ++ feed d.value

instance [∀ k, Auxiliary (V k)] : Auxiliary (Dynamic V) where
  make d name instrumented := Auxiliary.make d.value name instrumented

theorem mk_beq_mk [∀ k, BEq (V k)] {k : κ} {v w : V k} : ((⟨k, v⟩ : Dynamic V) == ⟨k, w⟩) = (v == w) := by
  show ((cast? ⟨k, w⟩ k).any (v == ·)) = (v == w)
  simp [cast?]

theorem kind_eq_of_beq [∀ k, BEq (V k)] {a b : Dynamic V} (h : (a == b) = true) : a.kind = b.kind := by
  obtain ⟨w, hw, -⟩ := (Option.any_eq_true _ _).1 h
  unfold cast? at hw
  split at hw
  · rename_i hkind
    exact hkind.symm
  · exact absurd hw (by simp)

end Dynamic

end CallPlan
