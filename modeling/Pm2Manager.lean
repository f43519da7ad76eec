import Pm2Manager.Machine
import Pm2Manager.Lockstep
import Pm2Manager.Simulation
import Pm2Manager.FixedWidth
import Pm2Manager.StableSort
import Pm2Manager.ScriptText
import Pm2Manager.AppError
import Pm2Manager.UsersTable
import Pm2Manager.SessionStore
import Pm2Manager.FieldChecks
import Pm2Manager.ActivityLog
import Pm2Manager.SettingsTable
import Pm2Manager.AuthModel
import Pm2Manager.AuthStep
import Pm2Manager.AuthSegments
import Pm2Manager.AuthTransitions
import Pm2Manager.TotpSecretStability
import Pm2Manager.AdminPresence
import Pm2Manager.UsernameCollisions
import Pm2Manager.CreatedAccounts
import Pm2Manager.SessionProvenance
import Pm2Manager.CredentialChanges
import Pm2Manager.PasswordOverwrites
import Pm2Manager.AccountDeletion
import Pm2Manager.SessionWrites
import Pm2Manager.SessionEnds
import Pm2Manager.SessionPrivileges
import Pm2Manager.Navigation
import Pm2Manager.AccountAudit
import Pm2Manager.AccountAuthority
import Pm2Manager.CsrfTokens
import Pm2Manager.LoginPage
import Pm2Manager.LoginProgress
import Pm2Manager.TwoRuns
import Pm2Manager.AccountEnumeration
import Pm2Manager.SecretIndependence
import Pm2Manager.ProcessTarget
import Pm2Manager.LogStream
import Pm2Manager.LogStreamCleanup
import Pm2Manager.Pm2Service
import Pm2Manager.Pm2Transitions
import Pm2Manager.EventBus
import Pm2Manager.Disconnection
import Pm2Manager.ConnectionAttempts
import Pm2Manager.Pm2Calls
import Pm2Manager.BusWaits
import Pm2Manager.ProcessEvents
import Pm2Manager.ProcessRequests
import Pm2Manager.ProcessAudit
import Pm2Manager.ApiServer
import Pm2Manager.ControllerReplies
import Pm2Manager.ApiClient
import Pm2Manager.Envelope
import Pm2Manager.TokenRetry
import Pm2Manager.RouteGuards
import Pm2Manager.MetricsTimers
import Pm2Manager.SweepTimestamps
import Pm2Manager.ServerDates
import Pm2Manager.RetentionRuns
import Pm2Manager.SeriesBuckets
import Pm2Manager.SeriesSums
import Pm2Manager.History
import Pm2Manager.LogTail
import Pm2Manager.DeliveredLines
import Pm2Manager.EventStream
import Pm2Manager.JsonText
import Pm2Manager.ProcessTable
import Pm2Manager.JsonTokens
import Pm2Manager.LikePattern
import Pm2Manager.LogEvents
import Pm2Manager.EventReader
import Pm2Manager.NumberText
import Pm2Manager.SessionText
import Pm2Manager.LogPanel
import Pm2Manager.SessionRows
import Pm2Manager.TimerDelays
import Pm2Manager.Paging
import Pm2Manager.ActivityPages
import Pm2Manager.StreamIsolation
import Pm2Manager.StartAll
import Pm2Manager.LogsView
import Pm2Manager.MetricsNames
import Pm2Manager.MetricsView
import Pm2Manager.Confirmation
import Pm2Manager.Polling
import Pm2Manager.BinarySearch
import Pm2Manager.ChartPlot
import Pm2Manager.ChartScale
import Pm2Manager.ChartBrush
import Pm2Manager.EnrolledSecrets
import Pm2Manager.LiveLogs
