import Querent.Main
import Querent.Config.Json
import Querent.Config.Url
import Querent.DbApi.Level
import Querent.DbApi.Moment
import Querent.Playback.Reader
import Querent.Server.Calls
import Querent.Statement.Offsets
import Querent.Workspace.Basic
import Querent.Proofs.Action
import Querent.Proofs.Library.Recorded
import Querent.Proofs.Result.Discipline
import Querent.Proofs.Library.Erasure
import Querent.Proofs.Ownership.Connections
import Querent.Proofs.Ownership.DbApi
import Querent.Proofs.Workspace.Holdings
import Querent.Proofs.Workspace.Ownership
import Querent.Proofs.Server.Answers
import Querent.Proofs.Server.Execution
import Querent.Proofs.Server.Iteration
import Querent.Proofs.Workspace.Isolation
import Querent.Proofs.Workspace.Iteration
import Querent.Proofs.Foreign.Delivery
import Querent.Proofs.Foreign.Rows
import Querent.Proofs.Foreign.Failures
import Querent.Proofs.Foreign.Stored
import Querent.Proofs.Foreign.Fields
import Querent.Proofs.Workspace.Fetching
import Querent.Proofs.Workspace.Closing
import Querent.Proofs.Sharing.Connections
import Querent.Proofs.Sharing.DbApi
import Querent.Proofs.Workspace.Sharing
import Querent.Proofs.Statement.Splitting
import Querent.Proofs.Statement.Naming
import Querent.Proofs.Statement.Selecting
import Querent.Proofs.Statement.Substitution
import Querent.Proofs.Workspace.Connecting
import Querent.Proofs.Procedure.Building
import Querent.Proofs.CommandLine.Conduct
import Querent.Proofs.Workspace.EmptyBatches
import Querent.Proofs.DbApi.Counting
import Querent.Proofs.DbApi.Describing
import Querent.Proofs.Workspace.Describing
import Querent.Proofs.Statement.Ending
import Querent.Proofs.Statement.Offsets
import Querent.Proofs.Result.EndOfData
import Querent.Proofs.DbApi.Moments
import Querent.Proofs.CommandLine.Failing
import Querent.Proofs.CommandLine.Overriding
import Querent.Proofs.CommandLine.Queries
import Querent.Proofs.Config.Locators
import Querent.Proofs.Config.Documents
