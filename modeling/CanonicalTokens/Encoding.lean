import CanonicalTokens.Json
import CanonicalTokens.CanonicalForm

/-!
# JSON forms

How reports, tallies, options and canonical forms are written as JSON.
-/

namespace CanonicalTokens

def Position.toJson (position : Position) : Json :=
  .object [("row", .ofNat position.row), ("column", .ofNat position.column)]

def DamageReport.toJson (report : DamageReport) : Json :=
  .object [
    ("error_nodes", .ofNat report.errorNodes),
    ("missing_nodes", .ofNat report.missingNodes),
    ("error_bytes", .ofNat report.errorBytes),
    ("source_bytes", .ofNat report.sourceBytes),
    ("first_error", .ofOption Position.toJson report.firstError),
    ("root_is_error", .bool report.rootIsError),
    ("truncated", .bool report.truncated)]

def ScopeTally.toJson (tally : ScopeTally) : Json :=
  .object [
    ("opened", .ofNat tally.opened),
    ("closed", .ofNat tally.closed),
    ("max_depth", .ofNat tally.maxDepth),
    ("declared", .ofNat tally.declared),
    ("unmatched_closes", .ofNat tally.unmatchedCloses)]

/-- A token is written as its text, whether it is a placeholder or not. -/
def Token.toJson (token : Token) : Json :=
  .string token.text

def CanonicalForm.toJson (form : CanonicalForm) : Json :=
  .object [
    ("language", .string form.language.name),
    ("tokens", .ofStrings form.tokens),
    ("strategy", .string form.attempt.name),
    ("report", form.report.toJson),
    ("trace", form.tally.toJson)]

def WalkOptions.toJson (options : WalkOptions) : Json :=
  .object [
    ("boundaries", .string options.boundaries.name),
    ("distinguish_numbers", .bool options.distinguishNumbers)]

end CanonicalTokens
