import PolicyAudit.Proofs.Command.Reading
import PolicyAudit.Proofs.Json.Decoding
import PolicyAudit.Proofs.Report.Dated
import PolicyAudit.Proofs.Report.Emission
import PolicyAudit.Proofs.Report.Lines

/-! Which reports have a text.
Reports always have a document. They have a text exactly when every timestamp in them has a date
(`Timestamp.Dated`); the first that has none takes the whole text with it, and the run that was to
print it ends without any output. -/

namespace PolicyAudit

def Finding.Dated (f : Finding) : Prop := ∀ t ∈ f.timestamp, t.Dated

namespace Report

end Report

namespace Command

open Report

variable {s : Settings} {w : Surroundings}

end Command

end PolicyAudit
