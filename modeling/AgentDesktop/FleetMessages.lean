import AgentDesktop.FleetViews
import AgentDesktop.ProgramReportTrue

namespace AgentDesktop

def ProgramState.asStr : ProgramState → String
  | .applied => "applied"
  | .unchanged => "unchanged"
  | .removed => "removed"
  | .conflict => "conflict"
  | .inactive => "inactive"
  | .blocked => "blocked"
  | .optedOut => "opted_out"
  | .failed => "failed"

open FleetStore

section

variable {β : Type} [DecidableEq β]

end

section

variable {Text : Type} {text : JsonText Text} {actions : List FleetAction} {id eventId : String} {now : Int}
  {record : DeviceRecord}

end

end AgentDesktop
