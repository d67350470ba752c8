import CodeAtlas.Extent
import CodeAtlas.Text.Case
import CodeAtlas.Text.Search

/-!
# Health of functions

The body of a function, its lines joined by newlines, is searched for signs of trouble. Each sign
gives one flag, always in the same order.
-/
namespace CodeAtlas

inductive HealthFlag
  | largeFunction (lines : Nat)
  | blockingSleep
  | consoleLog
  | sheetsApiLoop
  | silentErrorHandling
  | analysisError (reason : String)
deriving DecidableEq, Repr

def HealthFlag.message : HealthFlag → String
  | .largeFunction lines => "LARGE FUNCTION - " ++ toString lines ++ " lines"
  | .blockingSleep => "BLOCKING SLEEP - blocks execution"
  | .consoleLog => "CONSOLE.LOG - should use SmartLogger"
  | .sheetsApiLoop => "LOOP WITH SHEETS API - quota risk"
  | .silentErrorHandling => "SILENT ERROR HANDLING - catch without logging/rethrowing"
  | .analysisError reason => "ANALYSIS ERROR: " ++ reason

structure HealthRules where
  /-- the number of lines above which a function is large -/
  largeFunctionLines : Nat := 100
deriving DecidableEq, Repr

namespace HealthRules

/-- The flags of a text of `length` lines. -/
def flags (rules : HealthRules) (length : Nat) (body : String) : List HealthFlag :=
  (if rules.largeFunctionLines < length then [.largeFunction length] else []) ++
  (if Text.holds body "Utilities.sleep(" then [.blockingSleep] else []) ++
  (if Text.holds body "console.log" then [.consoleLog] else []) ++
  (if Text.holds body "for" &&
    (Text.holds body "getRange(" || Text.holds body "SpreadsheetApp") then
    [.sheetsApiLoop] else []) ++
  (if Text.holds body "catch" && !Text.holds body "throw" &&
      !Text.holds (Text.lowerCase body) "log" then
    [.silentErrorHandling] else [])

def check (rules : HealthRules) (lines : List String) (line : Nat) : List HealthFlag :=
  let extent := Extent.ofLine lines line
  rules.flags extent.length ("\n".intercalate (extent.body lines))

end HealthRules

end CodeAtlas
