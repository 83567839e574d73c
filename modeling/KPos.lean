import KPos.Lib.Runs
import KPos.Lib.Tally
import KPos.Lib.Binary64
import KPos.Lib.Table
import KPos.Lib.Archive
import KPos.Lib.RowLock
import KPos.Lib.TwoStep
import KPos.Lib.Ledger
import KPos.Lib.Weights
import KPos.Lib.Paging
import KPos.Writes
import KPos.Inventory
import KPos.Accounts
import KPos.Products
import KPos.SyncBatch
import KPos.Reconciliations
import KPos.SyncService
import KPos.Effects
import KPos.Books
import KPos.Voids
import KPos.Calls
import KPos.References
import KPos.Storing
import KPos.Tenants
import KPos.Recording
import KPos.Intake
import KPos.Corrections
import KPos.Conflicts
import KPos.Consumers
import KPos.Locking
import KPos.Uuids
import KPos.Disclosure
import KPos.Invalidations
import KPos.Deadlocks
import KPos.StockLedger
import KPos.Submissions
import KPos.DeadLetters
import KPos.Retries
import KPos.Delivery
import KPos.FailureList
import KPos.Attempts
import KPos.Cases
import KPos.Openings
import KPos.Revenue
import KPos.Records
import KPos.Acceptance
import KPos.CorrectedAmounts
import KPos.Amounts
import KPos.Tender
import KPos.Devices
import KPos.Tokens
import KPos.Catalogue
import KPos.Uploads
import KPos.Adjustments
import KPos.ConflictSales
import KPos.Images
import KPos.Listings
import KPos.Histories
import KPos.BatchOrder
import KPos.Footprints
import KPos.Guards
import KPos.Lib.Codes
import KPos.Lib.Lifecycle
import KPos.Lifecycles
import KPos.Logout
import KPos.Reads
import KPos.Sessions
import KPos.Staff
import KPos.Confinement
import KPos.Attribution
import KPos.Lib.WriteOnce
import KPos.SalesBook
import KPos.Lib.Broker
import KPos.Queues
import KPos.Lib.Backlog
import KPos.Workload
import KPos.Outstanding
