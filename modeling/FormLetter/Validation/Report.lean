import FormLetter.Validation.Issue

namespace FormLetter.Validation

structure Summary where
  checked : Nat
  /-- All errors, also those that are left out. -/
  errors : Nat
  warnings : Nat
  returned : Nat
  deriving DecidableEq, Repr

structure Metadata where
  documentHash : String
  version : String
  deriving DecidableEq, Repr

def Metadata.ofDocument (archive : List UInt8) : Metadata :=
  ⟨"sha256:" ++ Digest.hex (Digest.ofBytes archive), "0.1.0"⟩

structure Report where
  valid : Bool
  issues : List Issue
  summary : Summary
  /-- Issues are left out because there are too many. -/
  truncated : Bool
  metadata : Metadata
  deriving DecidableEq, Repr

/-- The issues that count. -/
def kept (warnings : Bool) (issues : List Issue) : List Issue :=
  if warnings then issues else issues.filter (·.severity = .error)

/-- Warnings are left out unless they are asked for, and only then they make a document invalid.
Issues beyond the limit are left out at last. -/
def Report.build (issues : List Issue) (checked : Nat) (metadata : Metadata) (warnings : Bool)
    (limit : Option Nat) : Report :=
  let errorCount := issues.countP (·.severity = .error)
  let warningCount := issues.length - errorCount
  let sorted := Issue.sort (kept warnings issues)
  let returned := match limit with
    | some limit => sorted.take limit
    | none => sorted
  { valid := errorCount = 0 && (!warnings || warningCount = 0)
    issues := returned
    summary := ⟨checked, errorCount, warningCount, returned.length⟩
    truncated := returned.length < sorted.length
    metadata }

end FormLetter.Validation
