import AgentDesktop.UsageLocalDays

namespace AgentDesktop

section

variable {range : String} {now utcOffsetMinutes offset time : Int} {window : Window}

end

end AgentDesktop
