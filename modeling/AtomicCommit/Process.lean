/-!
# Processes

A process is known by its name, which doubles as the address a transport resolves and as the
actor of every log entry the process writes. Names are ordered by their characters, which is also
the order of their encoded bytes.
-/

namespace AtomicCommit

/-- The name of a coordinator or a participant. -/
structure ProcessId where
  /-- The name itself. -/
  name : String
deriving DecidableEq, Inhabited

namespace ProcessId

instance : ToString ProcessId := ⟨ProcessId.name⟩

instance : Ord ProcessId := ⟨fun p q => compare p.name q.name⟩

theorem compare_def (p q : ProcessId) : compare p q = compare p.name q.name := rfl

instance : Std.TransOrd ProcessId where
  eq_swap := by simp only [compare_def]; exact Std.OrientedCmp.eq_swap
  isLE_trans := by simp only [compare_def]; exact Std.TransCmp.isLE_trans

instance : Std.LawfulEqOrd ProcessId where
  compare_self := by simp
  eq_of_compare {p q} h := by
    cases p; cases q; exact congrArg _ (Std.compare_eq_iff_eq.1 h)

end ProcessId

end AtomicCommit
