import Footfall.Http.Answer
import Footfall.Report.Document
import Footfall.Proofs.Connection
import Footfall.Proofs.Registry
import Footfall.Proofs.Opening
import Footfall.Proofs.Batch
import Footfall.Proofs.Run
import Footfall.Proofs.Isolation
import Footfall.Proofs.Ownership
import Footfall.Proofs.Sites
import Footfall.Proofs.Storage
import Footfall.Proofs.Calls
import Footfall.Proofs.Delivery
import Footfall.Proofs.Likeness
import Footfall.Proofs.Agreement
import Footfall.Proofs.Transparency
import Footfall.Proofs.SharedTable
import Footfall.Proofs.Literals
import Footfall.Proofs.Lexing
import Footfall.Proofs.Guarding
import Footfall.Proofs.Quoting
import Footfall.Proofs.Atomicity
import Footfall.Proofs.Counting
import Footfall.Proofs.Calendar
import Footfall.Proofs.Filtering
import Footfall.Proofs.Owners
import Footfall.Proofs.Answering
import Footfall.Proofs.Restart
import Footfall.Proofs.Strangers
import Footfall.Proofs.History
import Footfall.Proofs.Paging
import Footfall.Proofs.Echo
import Footfall.Proofs.Admission
import Footfall.Proofs.Listing
import Footfall.Proofs.Values
import Footfall.Proofs.WholeDays
import Footfall.Proofs.Files
import Footfall.Proofs.Regrouping
import Footfall.Proofs.Dashboards
import Footfall.Proofs.Committing
import Footfall.Proofs.Screening
import Footfall.Proofs.Doubles
import Footfall.Proofs.Canonical
import Footfall.Proofs.Cleaning
import Footfall.Proofs.Overflowing
import Footfall.Proofs.Chronology
import Footfall.Proofs.Naming
import Footfall.Proofs.DayRange
import Footfall.Proofs.Ranking
import Footfall.Proofs.Charting
import Footfall.Proofs.TopValues
import Footfall.Proofs.Summaries
import Footfall.Proofs.Absence
import Footfall.Proofs.Totals
import Footfall.Proofs.Periods
import Footfall.Proofs.Patterns
import Footfall.Proofs.Searching
import Footfall.Proofs.Losing
import Footfall.Proofs.Outages
import Footfall.Proofs.Deleting
import Footfall.Proofs.Appending
import Footfall.Proofs.Statements
import Footfall.Proofs.Capping
import Footfall.Proofs.Superseding
import Footfall.Proofs.Documents
import Footfall.Proofs.RemoteAnswers
import Footfall.Proofs.Bounds
import Footfall.Proofs.Seeking
import Footfall.Proofs.FileNames
import Footfall.Proofs.DateParameters
import Footfall.Proofs.Visitors
