import CodeAtlas.Audit.Percent

/-!
# Audits as Markdown

A table with the summary, then the folders in order, each with its files and their functions. A
folder without files is left out. The blocks are joined by newlines, and some begin or end with one
of their own.
-/
namespace CodeAtlas.AuditReport

def summaryBlock (s : AuditSummary) : String :=
  "\n## AUDIT SUMMARY\n\n| Metric | Count |\n|--------|-------|\n" ++
  "| **Total Files Audited** | " ++ toString s.filesAudited ++ " |\n" ++
  "| **Total Functions Analyzed** | " ++ toString s.totalFunctions ++ " |\n" ++
  "| **Orphaned Functions** | " ++ toString s.orphaned ++ " (" ++ s.orphanedPercent ++ "%) |\n" ++
  "| **Functions with Health Flags** | " ++ toString s.flagged ++ " (" ++
    s.flaggedPercent ++ "%) |\n" ++
  "\n**NOTE:** This automated audit provides high-level analysis. " ++
  "Manual code review recommended for critical functions.\n"

def functionBlocks (f : FunctionAudit) : List String :=
  [ "\n#### FUNCTION: " ++ f.name,
    "**LINES:** " ++ toString f.line ++ "+",
    "**SIGNATURE:** `" ++ f.signature ++ "`",
    if f.isOrphaned then "**WIRED-UP:** ORPHANED - no references found"
      else "**WIRED-UP:** " ++ toString f.callSites ++ " call site(s) found",
    if f.flags.isEmpty then "**HEALTH FLAGS:** None"
      else "**HEALTH FLAGS:** " ++ "; ".intercalate f.flags,
    "" ]

def fileBlocks (file : FileAudit) : List String :=
  [ "\n### FILE: " ++ file.path,
    "**LINES:** " ++ toString file.lineCount,
    "**FUNCTIONS:** " ++ toString file.recordCount ++ "\n" ] ++
  file.functions.flatMap functionBlocks

def folderBlocks (folder : String) (files : List FileAudit) : List String :=
  if files.isEmpty then []
  else ("\n## " ++ Text.upperCase folder ++ " FOLDER\n") :: files.flatMap fileBlocks

def markdown (report : AuditReport) : String :=
  "\n".intercalate
    (summaryBlock report.summary :: report.folders.entries.flatMap fun (folder, files) =>
      folderBlocks folder files)

end CodeAtlas.AuditReport
