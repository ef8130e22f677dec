import AgentDesktop.JsonRollbackPaths
import AgentDesktop.JsonRemergeRuns
import AgentDesktop.JsonKeyedRuns
import AgentDesktop.ProgramReportTrue
import AgentDesktop.SavedCurrent
import AgentDesktop.LogoutFinal
import AgentDesktop.TokenRotationRuns
import AgentDesktop.StatusOrder
import AgentDesktop.ApplyRuns
import AgentDesktop.CacheRuns
import AgentDesktop.ProxyUpstream
import AgentDesktop.ProxyTokenFetches
import AgentDesktop.UsageUncompacted
import AgentDesktop.UsageDayReports
import AgentDesktop.RegistryPolicyRuns
import AgentDesktop.OwnedFileRuns
import AgentDesktop.VsCodeRoundTrip
import AgentDesktop.VsCodeDeleted
import AgentDesktop.SecretReplaced
import AgentDesktop.DeviceSignInRuns
import AgentDesktop.EnrollmentBound
import AgentDesktop.JwksRuns
import AgentDesktop.CredentialExpiry
import AgentDesktop.UsageIdentity
import AgentDesktop.UsageSums
import AgentDesktop.JsonArrayRollback
import AgentDesktop.ProxyConfined
import AgentDesktop.VsCodeUrl
import AgentDesktop.JsonLeftovers
import AgentDesktop.VsCodeMigration
import AgentDesktop.CopilotRecovered
import AgentDesktop.JsonMergeLaws
import AgentDesktop.WindowsCommand
import AgentDesktop.FleetMessages
import AgentDesktop.FeedDelivery
