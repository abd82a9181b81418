import SavedOrganizer.Abuse
import SavedOrganizer.Accounts.Deletion
import SavedOrganizer.Accounts.ForeignOrigin
import SavedOrganizer.Accounts.Origin
import SavedOrganizer.Accounts.PublicOrigin
import SavedOrganizer.Accounts.Requests
import SavedOrganizer.Accounts.Service
import SavedOrganizer.Auth.Service
import SavedOrganizer.Auth.Statements
import SavedOrganizer.Categories.Deletion
import SavedOrganizer.Categories.Filing
import SavedOrganizer.Categories.Names
import SavedOrganizer.Categories.Positions
import SavedOrganizer.Categories.Requests
import SavedOrganizer.Categories.Service
import SavedOrganizer.Categorizer
import SavedOrganizer.Config.MasterKey
import SavedOrganizer.Config.Settings
import SavedOrganizer.Frontend.AuthProvider
import SavedOrganizer.Frontend.Categories
import SavedOrganizer.Frontend.JavaScript
import SavedOrganizer.Frontend.MessageContent
import SavedOrganizer.Frontend.MessageDrag
import SavedOrganizer.Frontend.MessageFilters
import SavedOrganizer.Frontend.MessageRequest
import SavedOrganizer.Frontend.ScanProgress
import SavedOrganizer.Frontend.ShownContent
import SavedOrganizer.Frontend.TextParts
import SavedOrganizer.Frontend.UrlTrimming
import SavedOrganizer.Library.Base64
import SavedOrganizer.Library.Checks
import SavedOrganizer.Library.FormUrlencoded
import SavedOrganizer.Library.LatestRequest
import SavedOrganizer.Library.LockedTable
import SavedOrganizer.Library.Pagination
import SavedOrganizer.Library.Query
import SavedOrganizer.Library.Rounding
import SavedOrganizer.Library.RowLock
import SavedOrganizer.Library.SearchParams
import SavedOrganizer.Library.Table
import SavedOrganizer.Library.Transition
import SavedOrganizer.Library.Trimming
import SavedOrganizer.Messages.Deletion
import SavedOrganizer.Messages.Edits
import SavedOrganizer.Messages.Kinds
import SavedOrganizer.Messages.Links
import SavedOrganizer.Messages.Pages
import SavedOrganizer.Messages.Search
import SavedOrganizer.Messages.Service
import SavedOrganizer.Models
import SavedOrganizer.Organizer
import SavedOrganizer.Python.Text
import SavedOrganizer.Python.Urllib
import SavedOrganizer.RequestBody
import SavedOrganizer.Scanner.Bounds
import SavedOrganizer.Scanner.Emission
import SavedOrganizer.Scanner.Invariant
import SavedOrganizer.Scanner.Message
import SavedOrganizer.Scanner.Preview
import SavedOrganizer.Scanner.Scan
import SavedOrganizer.Scanner.Source
import SavedOrganizer.Scanner.Url
import SavedOrganizer.Scanner.UrlTrimming
import SavedOrganizer.Scanner.UsableUrl
import SavedOrganizer.Security
import SavedOrganizer.Service.Connection
import SavedOrganizer.Service.Finalize
import SavedOrganizer.Service.JobStatements
import SavedOrganizer.Service.Lease
import SavedOrganizer.Service.MarkerStatements
import SavedOrganizer.Service.Persist
import SavedOrganizer.Service.Staging
import SavedOrganizer.Service.Start
import SavedOrganizer.Service.StatusStream
import SavedOrganizer.Service.Streams
import SavedOrganizer.System.AccountDeletion
import SavedOrganizer.System.AccountRequests
import SavedOrganizer.System.Budgets
import SavedOrganizer.System.Completion
import SavedOrganizer.System.ConnectionCalls
import SavedOrganizer.System.ConnectionChange
import SavedOrganizer.System.CookieWrites
import SavedOrganizer.System.FairQueue
import SavedOrganizer.System.Fencing
import SavedOrganizer.System.JobChange
import SavedOrganizer.System.Lockouts
import SavedOrganizer.System.MarkerPhases
import SavedOrganizer.System.MarkerSteps
import SavedOrganizer.System.MarkerViews
import SavedOrganizer.System.Markers
import SavedOrganizer.System.MessageChange
import SavedOrganizer.System.NonEnumeration
import SavedOrganizer.System.OwnSessions
import SavedOrganizer.System.PageEffect
import SavedOrganizer.System.Poison
import SavedOrganizer.System.Previews
import SavedOrganizer.System.Progress
import SavedOrganizer.System.RateLimits
import SavedOrganizer.System.Replacement
import SavedOrganizer.System.SessionBound
import SavedOrganizer.System.SessionLifetime
import SavedOrganizer.System.Sessions
import SavedOrganizer.System.SiteInvariant
import SavedOrganizer.System.StalePreview
import SavedOrganizer.System.StaleWorker
import SavedOrganizer.System.StatementCalls
import SavedOrganizer.System.StatementCommits
import SavedOrganizer.System.StatementMarks
import SavedOrganizer.System.StatementReplacement
import SavedOrganizer.System.StatementRuns
import SavedOrganizer.System.StatementSync
import SavedOrganizer.System.StatementViews
import SavedOrganizer.System.StatementWorld
import SavedOrganizer.System.StatusStreams
import SavedOrganizer.System.Stop
import SavedOrganizer.System.Store
import SavedOrganizer.System.StreamSlots
import SavedOrganizer.System.Sync
import SavedOrganizer.System.TerminalStates
import SavedOrganizer.System.Tokens
import SavedOrganizer.System.VerifiedStays
import SavedOrganizer.System.WellFormed
import SavedOrganizer.System.World
import SavedOrganizer.Tags.Bulk
import SavedOrganizer.Tags.Filter
import SavedOrganizer.Tags.Requests
import SavedOrganizer.Tags.Service
import SavedOrganizer.Tenants.Categories
import SavedOrganizer.Tenants.Deletions
import SavedOrganizer.Tenants.Isolation
import SavedOrganizer.Tenants.Messages
import SavedOrganizer.Tenants.Rows
import SavedOrganizer.Tenants.Tags
