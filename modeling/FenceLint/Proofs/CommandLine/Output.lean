import FenceLint.CommandLine.Run
import FenceLint.Proofs.Report.Record
import FenceLint.Proofs.Report.Rendering

/-!
What a report is on standard output: the lines of its parts, each with a line feed behind it, or
one JSON value from which a reader takes the record of the report, and a line feed.
-/

set_option autoImplicit false

namespace FenceLint

namespace CommandLine

open Printer

/-- A report as it is written, by its parts and by its value with the record that is read from it. -/
inductive Written {α : Type} (ink : Ink) (parts : List Part) (value : Json)
    (read? : Json → Option α) (record : α) : ReportFormat → String → Prop
  | lines (output : String) (h : output.toList = Part.print ink parts) :
    Written ink parts value read? record .human output
  | value (text : String) (hvalue : Json.parse? text = some value)
    (hrecord : read? value = some record) :
    Written ink parts value read? record .json (text ++ "\n")

variable (site : Site) (o : Options) (single : Bool)

theorem written_reportText (report : Report) :
    Written (o.ink site) (report.shown o.quiet) report.toJson ReportRecord.read? report.record
      (o.reportFormat single) (o.reportText site single report) := by
  unfold Options.reportText
  cases o.reportFormat single with
  | human => exact .lines _ (report.toList_report (o.ink site) o.quiet)
  | json => exact .value _ (Json.parse?_pretty report.toJson) (ReportRecord.read?_toJson report)

theorem written_multiText (multi : MultiReport) :
    Written (o.ink site) (multi.shown o.quiet) multi.toJson CollectionRecord.read? multi.record
      (o.reportFormat single) (o.multiText site single multi) := by
  unfold Options.multiText
  cases o.reportFormat single with
  | human => exact .lines _ (multi.toList_multiReport (o.ink site) o.quiet)
  | json => exact .value _ (Json.parse?_pretty multi.toJson) (CollectionRecord.read?_toJson multi)

end CommandLine

end FenceLint
