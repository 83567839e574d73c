/-
# The requests that write (`main.ts`, the controllers and their DTOs)

A request that passed the guards goes through the validation pipe to its handler, which takes
the merchant and the user from the access token and calls a service.

* `Request` : the requests behind the guards that write, `Request.access` who may make them;
* `Request.valid` : what the decorators of the DTOs ask;
* `Request.op` : the call that the handler makes.
-/
import KPos.Guards
import KPos.SyncService

namespace KPos

/-! ## The validation pipe -/

/-- `isLength` of `validator`: code points count, variation selectors do not. -/
def isLength (min : ℕ) (max : Option ℕ) (s : String) : Bool :=
  let length := s.toList.countP fun c => decide (c.toNat ∉ [0xFE0E, 0xFE0F])
  decide (min ≤ length) && max.all fun max => decide (length ≤ max)

def LoginDto.valid (isEmail : String → Bool) (dto : LoginDto) : Bool :=
  isEmail dto.email && decide (dto.email ≠ "") && decide (dto.password ≠ "")

def RegisterDto.valid (isEmail : String → Bool) (dto : RegisterDto) : Bool :=
  decide (dto.fullName ≠ "") && isEmail dto.email && decide (dto.email ≠ "") &&
    isLength 8 none dto.password && decide (dto.merchantName ≠ "")

/-- An owner cannot be made this way. -/
def CreateUserDto.valid (isEmail : String → Bool) (dto : CreateUserDto) : Bool :=
  decide (dto.fullName ≠ "") && isEmail dto.email && decide (dto.email ≠ "") &&
    isLength 8 none dto.password && decide (dto.role ∈ [UserRole.OPERATOR, .ENTRY])

/-- `IsNumber({ maxDecimalPlaces: 2 })` and `Min(0)`. -/
def validPrice (price : ℚ) : Bool := decide ((price * 100).den = 1) && decide (0 ≤ price)

def CreateProductDto.valid (dto : CreateProductDto) : Bool :=
  decide (dto.name ≠ "") && validPrice dto.price

/-- `PartialType(CreateProductDto)`: the fields that are there are checked. -/
def UpdateProductDto.valid (dto : UpdateProductDto) : Bool :=
  (dto.name.all fun name => decide (name ≠ "")) && dto.price.all validPrice

def ResolveConflictDto.valid (dto : ResolveConflictDto) : Bool := dto.notes.all (isLength 5 none)

def CorrectItemDto.valid (item : CorrectItemDto) : Bool :=
  decide (item.idProduct ≠ .text "") && decide (0 < item.quantity) && decide (0 < item.unitPrice) &&
    decide (0 < item.subtotal)

/-- The list of items may be empty. -/
def CorrectTransactionDto.valid (dto : CorrectTransactionDto) : Bool :=
  isLength 10 none dto.reason && dto.items.all CorrectItemDto.valid && decide (0 < dto.subtotal) &&
    decide (0 < dto.total) && dto.notes.all fun notes => decide (notes ≠ "")

def CreateReconciliationDto.valid (dto : CreateReconciliationDto) : Bool :=
  decide (dto.idTransaction ≠ .text "") && decide (dto.reason ≠ "")

def ResolveReconciliationDto.valid (dto : ResolveReconciliationDto) : Bool :=
  decide (dto.resolution ≠ "")

/-! ## Requests -/

/-- A request that writes, with what its handler gets from outside the database: the hash of a
password, a random code, the outcome of an upload or of a publication. -/
inductive Request where
  | createUser (dto : CreateUserDto) (hashedPassword : String)
  | updateUserStatus (idUser : Ident) (isActive : Bool)
  | createDevice (name pairingCode : String)
  | removeDevice (id : Ident)
  | createProduct (dto : CreateProductDto) (upload : Upload)
  | updateProduct (id : Ident) (dto : UpdateProductDto) (upload : Upload)
  | removeProduct (id : Ident)
  | adjustStock (id : Ident) (dto : AdjustStockDto)
  | syncTransactions (idDevice : Ident) (batch : SyncBatchDto) (publish : Call)
  | voidTransaction (id : Ident) (voidReason : String)
  | resolveConflict (id : Ident) (dto : ResolveConflictDto)
  | correctTransaction (id : Ident) (dto : CorrectTransactionDto)
  | reconcile (id : Ident) (dto : CreateReconciliationDto)
  | createReconciliation (dto : CreateReconciliationDto)
  | resolveReconciliation (id : Ident) (dto : ResolveReconciliationDto)

/-- The decorators of the handler of a request and of its controller. -/
def Request.access : Request → Access
  | .createUser .. | .updateUserStatus .. => ⟨none, some [.OWNER], true⟩
  | .createDevice .. | .removeDevice .. => ⟨some [.OWNER], none, true⟩
  | .createProduct .. | .updateProduct .. | .removeProduct .. | .adjustStock .. =>
      ⟨some [.OWNER, .ENTRY], none, true⟩
  | .syncTransactions .. => ⟨some [.OWNER, .OPERATOR, .ENTRY], none, true⟩
  | .voidTransaction .. => ⟨some [.OWNER, .OPERATOR], none, true⟩
  | .resolveConflict .. | .correctTransaction .. => ⟨some [.OWNER], none, true⟩
  | .reconcile .. => ⟨some [.OWNER], none, true⟩
  | .createReconciliation .. => ⟨some [.OWNER, .OPERATOR], none, true⟩
  | .resolveReconciliation .. => ⟨some [.OWNER], none, true⟩

/-- What the validation pipe asks of the body. -/
def Request.valid (isEmail : String → Bool) : Request → Bool
  | .createUser dto _ => dto.valid isEmail
  | .createDevice name _ => decide (name ≠ "") && isLength 0 (some 100) name
  | .createProduct dto _ => dto.valid
  | .updateProduct _ dto _ => dto.valid
  | .voidTransaction _ voidReason => isLength 5 none voidReason
  | .resolveConflict _ dto => dto.valid
  | .correctTransaction _ dto => dto.valid
  | .reconcile _ dto => dto.valid
  | .createReconciliation dto => dto.valid
  | .resolveReconciliation _ dto => dto.valid
  -- a batch carries what is asked of it, and any number and any flag will do
  | .syncTransactions .. | .adjustStock .. | .updateUserStatus .. | .removeDevice ..
  | .removeProduct .. => true

/-- The call that the handler makes for a user; a batch is published instead. -/
def Request.op (user : JwtPayload) (now : DateTime) : Request → Option Op
  | .createUser dto hashedPassword => some (.createUser user.idMerchant dto hashedPassword)
  | .updateUserStatus idUser isActive => some (.updateUserStatus idUser user.idMerchant isActive)
  | .createDevice name pairingCode =>
      some (.createDevice user.idMerchant user.sub name pairingCode now)
  | .removeDevice id => some (.removeDevice id user.idMerchant)
  | .createProduct dto upload => some (.createProduct user dto upload now)
  | .updateProduct id dto upload => some (.updateProduct user id dto upload)
  | .removeProduct id => some (.removeProduct user id)
  | .adjustStock id dto => some (.adjustStock user id dto now)
  | .syncTransactions .. => none
  | .voidTransaction id voidReason => some (.voidTransaction user id voidReason now)
  | .resolveConflict id dto => some (.resolveConflict user id dto now)
  | .correctTransaction id dto => some (.correctTransaction user id dto now)
  | .reconcile id dto => some (.reconcilePayment user id dto now)
  | .createReconciliation dto => some (.createReconciliation user dto now)
  | .resolveReconciliation id dto => some (.resolveReconciliation id user dto now)

end KPos
