import CodeAtlas.Audit
import CodeAtlas.Decimal.Shortest

/-!
# Percentages of an audit

A share is computed in double precision: the quotient times a thousand, rounded to a whole number
with halves going up, then divided by ten; every step but that rounding is itself rounded to double
precision. It is written with one decimal place. A share of nothing is zero.
-/
namespace CodeAtlas

/-- `part` in hundredths of `whole`, to one place. -/
def percent (part whole : Nat) : Binary :=
  if whole = 0 then ⟨0, 0⟩
  else
    let p := Binary.round part 1
    let w := Binary.round whole 1
    let quotient := Binary.round (p.num * w.den) (p.den * w.num)
    let thousandths := Binary.round (quotient.num * 1000) quotient.den
    let rounded := (2 * thousandths.num + thousandths.den) / (2 * thousandths.den)
    Binary.round rounded 10

def percentText (part whole : Nat) : String :=
  let share := percent part whole
  String.ofList (Decimal.fixed 1 share.num share.den)

namespace AuditSummary

def orphanedPercent (s : AuditSummary) : String :=
  percentText s.orphaned s.totalFunctions

def flaggedPercent (s : AuditSummary) : String :=
  percentText s.flagged s.totalFunctions

end AuditSummary

end CodeAtlas
