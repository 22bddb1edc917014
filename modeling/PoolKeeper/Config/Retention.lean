import PoolKeeper.Text.Decimal

/-!
# `PoolKeeper/Config/Retention.lean` — how many snapshots the repository keeps

Six rules, each with a count. A count of zero is no rule at all; a policy without rules asks for
nothing to be removed.
-/

set_option autoImplicit false

namespace PoolKeeper

open Text

structure Retention where
  keepLatest : Option UInt32 := none
  keepHourly : Option UInt32 := none
  keepDaily : Option UInt32 := none
  keepWeekly : Option UInt32 := none
  keepMonthly : Option UInt32 := none
  keepAnnual : Option UInt32 := none
deriving DecidableEq, Repr

namespace Retention

/-- The policy's rules as flags of the engine, with the counts that constrain anything. -/
def flags (p : Retention) : List (String × UInt32) :=
  [("--keep-latest", p.keepLatest), ("--keep-hourly", p.keepHourly),
    ("--keep-daily", p.keepDaily), ("--keep-weekly", p.keepWeekly),
    ("--keep-monthly", p.keepMonthly), ("--keep-annual", p.keepAnnual)].filterMap
    fun (flag, count) => (count.filter (· > 0)).map (flag, ·)

def isEmpty (p : Retention) : Bool := p.flags.isEmpty

/-- The flags as arguments, each followed by its count. -/
def arguments (p : Retention) : List String :=
  p.flags.flatMap fun (flag, count) => [flag, String.ofList (decimal count.toNat)]

end Retention

end PoolKeeper
