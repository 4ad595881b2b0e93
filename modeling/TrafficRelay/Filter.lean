import TrafficRelay.Record
import TrafficRelay.Whitelist

/-!
# The filter

Requests are judged by the whitelist and their verdict is remembered; answers
take the verdict of their request.  An answer for which no verdict is on
record is allowed.
-/

namespace TrafficRelay

/-- A whitelist together with the verdicts that await an answer. -/
structure Filter where
  whitelist : Whitelist
  table : VerdictTable
  deriving DecidableEq, Repr

namespace Filter

/-- Judge one record. -/
def judge (filter : Filter) (now : Instant) (record : Record) : Verdict × Filter :=
  match record.header.kind with
  | .request =>
      let verdict := filter.whitelist.judge record.body
      (verdict,
        { filter with table := (filter.table.remember now record.session verdict).2 })
  | .response | .replayReport =>
      let (verdict?, table) := filter.table.redeem now record.session
      (verdict?.getD .allow, { filter with table })

end Filter

end TrafficRelay
