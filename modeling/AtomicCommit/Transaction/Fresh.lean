import AtomicCommit.Transaction.Id

/-!
# A supply of identifiers

Identifiers are made from random numbers. A supply gives the numbers prescribed for it, and after
them one, two, three and so on, so that a run can be repeated.
-/

namespace AtomicCommit

/-- The numbers from which identifiers are made. -/
structure IdSupply where
  /-- The numbers prescribed. -/
  prescribed : List (BitVec 128) := []
  /-- How many numbers were made up after them. -/
  made : Nat := 0
deriving DecidableEq, Inhabited

namespace IdSupply

/-- The next identifier. -/
def draw (supply : IdSupply) : TransactionId × IdSupply :=
  match supply.prescribed with
  | random :: rest => (.ofRandom random, { supply with prescribed := rest })
  | [] => (.ofRandom (BitVec.ofNat 128 (supply.made + 1)), { supply with made := supply.made + 1 })

/-- The next few identifiers. -/
def take (supply : IdSupply) : Nat → List TransactionId
  | 0 => []
  | n + 1 => supply.draw.1 :: supply.draw.2.take n

end IdSupply

end AtomicCommit
