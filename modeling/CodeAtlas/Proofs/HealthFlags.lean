import CodeAtlas.Health
import CodeAtlas.Proofs.BraceCount
import CodeAtlas.Proofs.LineSearch

/-!
# What the flags of a function say

Each flag is a statement about single lines of the body, `HealthFlag.Raised`, although the body is
searched as one text. The flags of a function are some of five candidates, in a fixed order, which
is where their order and their being different come from. A line that logs to the console has `log`
in it in lower case too, so the handling of errors in such a body is never silent. No extent is
longer than the window, so that a limit as large as the window makes no function large.
-/
namespace CodeAtlas

open Text

namespace HealthFlag

/-- The flags that a function of this length can have, in their order. -/
def candidates (length : Nat) : List HealthFlag :=
  [.largeFunction length, .blockingSleep, .consoleLog, .sheetsApiLoop, .silentErrorHandling]

/-- When a function of this length, with these lines as its body, has a flag. -/
def Raised (rules : HealthRules) (length : Nat) (body : List String) : HealthFlag → Prop
  | .largeFunction n => n = length ∧ rules.largeFunctionLines < n
  | .blockingSleep => ∃ line ∈ body, Contains line "Utilities.sleep("
  | .consoleLog => ∃ line ∈ body, Contains line "console.log"
  | .sheetsApiLoop => (∃ line ∈ body, Contains line "for") ∧
      ∃ line ∈ body, Contains line "getRange(" ∨ Contains line "SpreadsheetApp"
  | .silentErrorHandling => (∃ line ∈ body, Contains line "catch") ∧
      (∀ line ∈ body, ¬ Contains line "throw") ∧ ∀ line ∈ body, ¬ Contains (lowerCase line) "log"
  | .analysisError _ => False

theorem candidates_nodup (length : Nat) : (candidates length).Nodup := by
  simp [candidates]

/-- A line that logs to the console keeps its `log` in lower case. -/
theorem not_raised_silentErrorHandling {rules : HealthRules} {length : Nat} {body : List String}
    (h : Raised rules length body .consoleLog) :
    ¬ Raised rules length body .silentErrorHandling := by
  obtain ⟨line, inBody, logs⟩ := h
  have log : Contains line "log" := List.IsInfix.trans ⟨"console.".toList, [], rfl⟩ logs
  have plain : ∀ c ∈ "log".toList, isLowerAscii c = true := List.all_eq_true.mp (by decide +kernel)
  intro silent
  exact silent.2.2 line inBody (contains_lowerCase plain log)

end HealthFlag

namespace HealthRules

open HealthFlag

variable (rules : HealthRules)

theorem holds_intercalate_iff {piece : String} (filled : piece ≠ "") (plain : '\n' ∉ piece.toList)
    (body : List String) : holds ("\n".intercalate body) piece = true ↔ ∃ line ∈ body,
      Contains line piece := by
  rw [holds_eq_true_iff, contains_intercalate filled plain]

theorem mem_flags_iff (length : Nat) (body : List String) (flag : HealthFlag) :
    flag ∈ rules.flags length ("\n".intercalate body) ↔ flag.Raised rules length body := by
  cases flag with
  | largeFunction n =>
    have large : .largeFunction n ∈ rules.flags length ("\n".intercalate body) ↔
        rules.largeFunctionLines < length ∧ n = length := by simp [flags]
    rw [large, Raised, and_comm]
    exact and_congr_right fun same => by rw [same]
  | blockingSleep => simp [flags, Raised, holds_intercalate_iff]
  | consoleLog => simp [flags, Raised, holds_intercalate_iff]
  | sheetsApiLoop =>
    have loop (text : String) : .sheetsApiLoop ∈ rules.flags length text ↔
        holds text "for" = true ∧
        (holds text "getRange(" = true ∨ holds text "SpreadsheetApp" = true) := by
      simp [flags]
    simp (disch := decide) only [loop, holds_intercalate_iff, Raised, and_or_left, exists_or]
  | silentErrorHandling =>
    have silent (text : String) : .silentErrorHandling ∈ rules.flags length text ↔
        holds text "catch" = true ∧ ¬ holds text "throw" = true ∧
        ¬ holds (lowerCase text) "log" = true := by
      simp [flags, and_assoc]
    -- in lower case, the lines of the body are the lines in lower case
    simp (disch := decide) only [silent, lowerCase_intercalate, holds_intercalate_iff,
      Raised, List.mem_map, exists_exists_and_eq_and, not_exists, not_and]
  | analysisError reason => simp [flags, Raised]

theorem flags_sublist (length : Nat) (text : String) :
    (rules.flags length text).Sublist (candidates length) := by
  have single (b : Prop) [Decidable b] (flag : HealthFlag) :
      (if b then [flag] else []).Sublist [flag] := by
    split
    · exact List.Sublist.refl _
    · exact List.nil_sublist _
  exact ((((single _ _).append (single _ _)).append (single _ _)).append (single _ _)).append
    (single _ _)

/-- A function has exactly the flags that its body lines raise, whatever its file, the line of its
declaration and the limit on its length. They come in the order of the candidates, each at most
once. A body that logs to the console has no silent handling of errors, and a limit of 501 lines or
more is never exceeded. -/
theorem check_raises (lines : List String) (line : Nat) :
    let extent := Extent.ofLine lines line
    (∀ flag, flag ∈ rules.check lines line ↔ flag.Raised rules extent.length (extent.body lines)) ∧
    (rules.check lines line).Sublist [.largeFunction extent.length, .blockingSleep,
      .consoleLog, .sheetsApiLoop, .silentErrorHandling] ∧
    (rules.check lines line).Nodup ∧
    ¬ (.consoleLog ∈ rules.check lines line ∧ .silentErrorHandling ∈ rules.check lines line) ∧
    (501 ≤ rules.largeFunctionLines → ∀ n, .largeFunction n ∉ rules.check lines line) := by
  intro extent
  have raised (flag : HealthFlag) :
      flag ∈ rules.check lines line ↔ flag.Raised rules extent.length (extent.body lines) :=
    rules.mem_flags_iff extent.length (extent.body lines) flag
  have ordered : (rules.check lines line).Sublist (candidates extent.length) :=
    rules.flags_sublist extent.length _
  refine ⟨raised, ordered, ordered.nodup (candidates_nodup extent.length), ?_, ?_⟩
  · intro both
    exact not_raised_silentErrorHandling ((raised _).mp both.1) ((raised _).mp both.2)
  · intro limit n large
    have length_le : extent.length ≤ _ := Extent.length_ofLine_le lines line
    obtain ⟨rfl, exceeds⟩ := (raised _).mp large
    omega

/-- The handler says nothing of the error, in a function that is long for a limit of three lines and
short for 501. -/
theorem check_raises_of_loop :
    let lines :=
      ["function f() \x7b", " for (;;) try \x7b getRange(x) \x7d", " catch (e) \x7b ΟΣ(e) \x7d",
        "\x7d"]
    HealthFlag.Raised ⟨3⟩ 4 lines (.largeFunction 4) ∧
      HealthFlag.Raised ⟨3⟩ 4 lines .silentErrorHandling ∧
      501 ≤ (⟨501⟩ : HealthRules).largeFunctionLines ∧ ∀ n,
      .largeFunction n ∉ (⟨501⟩ : HealthRules).check lines 1 := by
  intro lines
  have flags : (⟨3⟩ : HealthRules).check lines 1 =
      [.largeFunction 4, .sheetsApiLoop, .silentErrorHandling] := by
    decide +kernel
  have raised := (check_raises ⟨3⟩ lines 1).1
  rw [flags] at raised
  exact ⟨(raised _).mp (by decide), (raised _).mp (by decide), by decide,
    (check_raises ⟨501⟩ lines 1).2.2.2.2 (by decide)⟩

end HealthRules

end CodeAtlas
