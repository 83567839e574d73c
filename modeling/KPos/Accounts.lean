/-
# Merchants, users and devices

`auth.service.ts` (`register`), `users.service.ts` and `devices.service.ts`.  What comes from
outside the database is an argument: the bcrypt hash of a password, the SHA-256 hash of a
hardware id, the random pairing code, the time.

The result of a write, which repeats columns of the row written, is left out here and in the
other services.
-/
import KPos.Writes

namespace KPos

/-! ## Registration and users -/

structure RegisterDto where
  fullName : String
  email : String
  password : String
  merchantName : String

/-- `AuthService.register`: a merchant and its owner, in one database transaction. -/
def Auth.register (db : Db) (dto : RegisterDto) (hashedPassword : String) : Except Err Db := do
  require (!db.users.has (.email dto.email)) (.conflict "Email already registered")
  -- the two rows are written in one database transaction
  let idMerchant := db.newId
  let db ← db.createMerchant { idMerchant := idMerchant, name := dto.merchantName }
  db.createUser
    { idUser := db.newId
      fullName := dto.fullName
      email := dto.email
      password := hashedPassword
      role := .OWNER
      idMerchant := some idMerchant
      isActive := true }

structure CreateUserDto where
  fullName : String
  email : String
  password : String
  role : UserRole

/-- `UsersService.create`. -/
def Users.create (db : Db) (ownerMerchantId : Ident) (dto : CreateUserDto)
    (hashedPassword : String) : Except Err Db := do
  require (!db.users.has (.email dto.email)) (.conflict "Email already registered")
  db.createUser
    { idUser := db.newId
      fullName := dto.fullName
      email := dto.email
      password := hashedPassword
      role := dto.role
      idMerchant := some ownerMerchantId
      isActive := true }

/-- `UsersService.updateStatus`. -/
def Users.updateStatus (db : Db) (targetUserId ownerMerchantId : Ident) (isActive : Bool) :
    Except Err Db := do
  let targetUser ← orThrow (db.users.findUnique (.id targetUserId)) (.notFound "User not found")
  require (decide (targetUser.idMerchant = some ownerMerchantId))
    (.forbidden "You do not have permission to modify this user")
  db.updateUser targetUserId ⟨fun u => { u with isActive := isActive }, fun _ => rfl⟩

/-! ## Devices -/

/-- `DevicesService.create`. -/
def Devices.create (db : Db) (idMerchant idUser : Ident) (name pairingCode : String)
    (now : DateTime) : Except Err Db :=
  db.createDevice
    { idDevice := db.newId
      idMerchant := idMerchant
      idUser := idUser
      name := name
      deviceIdHash := none
      pairingCode := some pairingCode
      status := .UNPAIRED
      isActive := true
      createdAt := now }

/-- The lookup and the test of `DevicesService.pairDevice`. -/
def Devices.pairDeviceRead (db : Db) (pairingCode : String) : Except Err Device := do
  let device ← orThrow (db.devices.findUnique (.pairingCode pairingCode))
    (.badRequest "Invalid pairing code or device already paired")
  require (decide (device.status = .UNPAIRED))
    (.badRequest "Device is already paired or revoked")
  return device

/-- The columns that pairing writes. -/
def Device.paired (deviceIdHash : String) (d : Device) : Device :=
  { d with deviceIdHash := some deviceIdHash, pairingCode := none, status := .PAIRED }

/-- The update of `DevicesService.pairDevice`, with its `catch`. -/
def Devices.pairDeviceWrite (db : Db) (device : Device) (deviceIdHash : String) :
    Except Err Db :=
  match db.updateDevice device.idDevice (·.paired deviceIdHash) with
  -- the hash of the hardware id is unique within the merchant
  | .error (.uniqueConstraint _) =>
      .error (.badRequest "Hardware ID is already registered for this merchant")
  | result => result

/-- `DevicesService.pairDevice`. -/
def Devices.pairDevice (db : Db) (pairingCode deviceIdHash : String) : Except Err Db := do
  let device ← Devices.pairDeviceRead db pairingCode
  Devices.pairDeviceWrite db device deviceIdHash

/-- The lookup of `DevicesService.remove`. -/
def Devices.removeRead (db : Db) (idDevice idMerchant : Ident) : Except Err Device :=
  orThrow
    (db.devices.rows.find? fun d =>
      decide (d.idDevice = idDevice ∧ d.idMerchant = idMerchant) && d.isActive)
    (.notFound "Device not found or already removed")

/-- The columns that removal writes. -/
def Device.revoked (d : Device) : Device := { d with isActive := false, status := .REVOKED }

/-- The update of `DevicesService.remove`. -/
def Devices.removeWrite (db : Db) (idDevice : Ident) : Except Err Db :=
  db.updateDevice idDevice Device.revoked

/-- `DevicesService.remove`. -/
def Devices.remove (db : Db) (idDevice idMerchant : Ident) : Except Err Db := do
  let _ ← Devices.removeRead db idDevice idMerchant
  Devices.removeWrite db idDevice

end KPos
