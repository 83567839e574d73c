/-
# What the services answer (`users`, `devices`, `merchants`, `payments`, `reconciliations`)

The calls that only read, with the rows that their `include` and `select` bring along.  The
lists of products, transactions and payments, the history of a transaction and the two queries
about the synchronisation are in modules of their own.

* `Query` : the calls that only read, and `Query.access`, who may make them;
* `Query.answer` : what they answer.
-/
import KPos.Guards
import KPos.Histories
import KPos.Listings
import KPos.Revenue

namespace KPos

/-! ## Accounts and devices -/

/-- The columns of a user that the services answer with. -/
structure ListedUser where
  idUser : Ident
  fullName : String
  email : String
  role : UserRole
  idMerchant : Option Ident
  isActive : Bool

def User.listed (u : User) : ListedUser :=
  ⟨u.idUser, u.fullName, u.email, u.role, u.idMerchant, u.isActive⟩

structure QueryUsersDto where
  role : Option UserRole
  isActive : Option Bool

/-- `UsersService.findAll`: the accounts of the merchant, the one created last first. -/
def Users.findAll (db : Db) (idMerchant : Ident) (query : QueryUsersDto) : List ListedUser :=
  ((db.users.rows.filter fun u =>
      decide (u.idMerchant = some idMerchant) && (query.role.all fun role => decide (u.role = role))
        && (query.isActive.all fun isActive => decide (u.isActive = isActive))).map
    User.listed).reverse

/-- `AuthService.getProfile`. -/
def Auth.getProfile (db : Db) (userId : Ident) : Except Err ListedUser := do
  let user ← orThrow (db.users.findUnique (.id userId)) (.recordNotFound "User")
  return user.listed

/-- `MerchantsService.getMyMerchant`. -/
def Merchants.getMyMerchant (db : Db) (idMerchant : Ident) : Except Err Merchant :=
  orThrow (db.merchants.findUnique (.id idMerchant)) (.notFound "Merchant not found")

/-- The columns of a device that `findAll` answers with. -/
structure ListedDevice where
  idDevice : Ident
  name : String
  status : DeviceStatus
  createdAt : DateTime

/-- The newest first. -/
def newestFirst {α : Type} (createdAt : α → DateTime) (l : List α) : List α :=
  l.mergeSort fun a b => decide (createdAt b ≤ createdAt a)

/-- `DevicesService.findAll`: the devices of the merchant that were not removed. -/
def Devices.findAll (db : Db) (idMerchant : Ident) : List ListedDevice :=
  newestFirst (·.createdAt) ((db.devices.rows.filter fun d =>
      decide (d.idMerchant = idMerchant) && d.isActive).map fun d =>
    ⟨d.idDevice, d.name, d.status, d.createdAt⟩)

/-! ## Cases -/

/-- A case with what is selected of the user who opened it and of the user who resolved it. -/
structure UserCase (β : Type) where
  row : Reconciliation
  openedByUser : β
  resolvedByUser : Option β

/-- The case with its users; the foreign key makes sure that there is one who opened it. -/
def Db.userCase {β : Type} (db : Db) (select : User → β) (r : Reconciliation) :
    Option (UserCase β) := do
  let openedBy ← db.users.findUnique (.id r.openedBy)
  return ⟨r, select openedBy,
    (r.resolvedBy.bind fun u => db.users.findUnique (.id u)).map select⟩

/-- The cases of a payment. -/
def Db.casesOf (db : Db) (idPayment : Ident) : List Reconciliation :=
  db.reconciliations.rows.filter fun r => decide (r.idPayment = idPayment)

/-- A payment with its transaction and its cases. -/
structure FoundPayment where
  row : Payment
  transaction : Option Transaction
  reconciliations : List (UserCase String)

/-- `PaymentsService.findOne`. -/
def Payments.findOne (db : Db) (user : JwtPayload) (id : Ident) : Except Err FoundPayment := do
  let payment ← orThrow (db.payments.findUnique (.id id)) (.notFound "Payment not found")
  -- another merchant's payment is refused, not missing
  require (decide (payment.idMerchant = user.idMerchant)) (.forbidden "Access denied")
  return ⟨payment, db.transactions.findUnique (.id payment.idTransaction),
    (db.casesOf payment.idPayment).filterMap (db.userCase (·.fullName))⟩

/-- A case with its payment and its transaction. -/
structure ListedReconciliation where
  payment : Payment
  transaction : Option Transaction
  case : UserCase String

/-- A case of the merchant, with what `findAll` includes. -/
def Db.listedReconciliation (db : Db) (idMerchant : Ident) (r : Reconciliation) :
    Option ListedReconciliation := do
  let payment ← (db.payments.findUnique (.id r.idPayment)).filter fun p =>
    decide (p.idMerchant = idMerchant)
  let case ← db.userCase (·.fullName) r
  return ⟨payment, db.transactions.findUnique (.id payment.idTransaction), case⟩

/-- `ReconciliationsService.findAll`. -/
def Reconciliations.findAll (db : Db) (user : JwtPayload) : List ListedReconciliation :=
  newestFirst (·.case.row.createdAt)
    (db.reconciliations.rows.filterMap (db.listedReconciliation user.idMerchant))

/-- The columns of a user that come with the history of a payment. -/
structure CaseUser where
  idUser : Ident
  fullName : String
  role : UserRole

/-- The answer of `getPaymentReconciliations`. -/
structure PaymentReconciliations where
  paymentId : Ident
  transactionId : Ident
  history : List (UserCase CaseUser)

/-- `ReconciliationsService.getPaymentReconciliations`. -/
def Reconciliations.getPaymentReconciliations (db : Db) (user : JwtPayload) (idPayment : Ident) :
    Except Err PaymentReconciliations := do
  -- it is the merchant of the transaction that counts here
  let payment ← orThrow ((db.payments.findUnique (.id idPayment)).filter fun p =>
      (db.transactions.findUnique (.id p.idTransaction)).any fun t =>
        decide (t.idMerchant = user.idMerchant))
    (.notFound s!"Payment with ID {idPayment} not found or unauthorized")
  return ⟨idPayment, payment.idTransaction, newestFirst (·.row.createdAt)
    ((db.casesOf idPayment).filterMap
      (db.userCase fun u => ⟨u.idUser, u.fullName, u.role⟩))⟩

/-! ## All queries -/

/-- A call that only reads, with what the client sends.  The two loops of a history get a bound
on their rounds. -/
inductive Query where
  | profile
  | myMerchant
  | users (query : QueryUsersDto)
  | devices
  | products (query : QueryProductsDto)
  | transactions (query : QueryTransactionsDto)
  | transaction (id : Ident)
  | history (id : Ident) (fuel : ℕ)
  | payments (status : Option PaymentStatus)
  | payment (id : Ident)
  | reconciliations
  | paymentReconciliations (idPayment : Ident)
  | failedQueues
  | syncStatus (offlineUuids : List Ident)

/-- The decorators of the handler of a query and of its controller. -/
def Query.access : Query → Access
  | .profile | .myMerchant => ⟨none, none, false⟩
  | .users _ => ⟨none, some [.OWNER], true⟩
  | .devices => ⟨some [.OWNER], none, true⟩
  | .products _ => ⟨some [.OWNER, .ENTRY, .OPERATOR], none, true⟩
  | .transactions _ | .transaction _ | .history _ _ => ⟨some [.OWNER, .OPERATOR], none, true⟩
  | .payments _ | .payment _ => ⟨some [.OWNER], none, true⟩
  | .reconciliations => ⟨some [.OWNER], none, true⟩
  | .paymentReconciliations _ => ⟨some [.OWNER, .OPERATOR], none, true⟩
  | .failedQueues => ⟨some [.OWNER, .OPERATOR], none, true⟩
  | .syncStatus _ => ⟨some [.OWNER, .OPERATOR, .ENTRY], none, true⟩

/-- An answer. -/
inductive Answer where
  | user (answer : ListedUser)
  | merchant (answer : Merchant)
  | users (answer : List ListedUser)
  | devices (answer : List ListedDevice)
  | products (answer : Listing FoundProduct)
  | transactions (answer : Listing FoundTransaction)
  | transaction (answer : FoundTransaction)
  | history (answer : Option (List HistoryEntry))
  | payments (answer : List ListedPayment)
  | payment (answer : FoundPayment)
  | reconciliations (answer : List ListedReconciliation)
  | paymentReconciliations (answer : PaymentReconciliations)
  | failedQueues (answer : List FailedQueue)
  | syncStatus (answer : List StatusAnswer)

/-- What a query answers to a user.  How the database compares texts with `contains` in the mode
`'insensitive'` is a parameter. -/
def Query.answer (contains : String → String → Bool) (db : Db) (user : JwtPayload) :
    Query → Except Err Answer
  | .profile => (Auth.getProfile db user.sub).map .user
  | .myMerchant => (Merchants.getMyMerchant db user.idMerchant).map .merchant
  | .users query => return .users (Users.findAll db user.idMerchant query)
  | .devices => return .devices (Devices.findAll db user.idMerchant)
  | .products query => return .products (Products.findAll contains db user query)
  | .transactions query => (Transactions.findAll db user query).map .transactions
  | .transaction id => (Transactions.findOne db user id).map .transaction
  | .history id fuel => (Transactions.getTransactionHistory db user id fuel).map .history
  | .payments status => return .payments (Payments.findAll db user status)
  | .payment id => (Payments.findOne db user id).map .payment
  | .reconciliations => return .reconciliations (Reconciliations.findAll db user)
  | .paymentReconciliations idPayment =>
      (Reconciliations.getPaymentReconciliations db user idPayment).map .paymentReconciliations
  | .failedQueues => return .failedQueues (Sync.getFailedSyncQueues db user)
  | .syncStatus offlineUuids => return .syncStatus (Sync.getStatusByOfflineUuids db offlineUuids)

end KPos
