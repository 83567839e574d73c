/-
# Products and manual stock adjustments (`products.service.ts`)

The image storage is outside the database: a call that carries a file gets the outcome of
its upload as an argument.
-/
import KPos.Inventory

namespace KPos

/-! ## Creating and changing products -/

structure CreateProductDto where
  name : String
  sku : Option String
  price : ℚ
  isActive : Option Bool

structure UpdateProductDto where
  name : Option String
  sku : Option String
  price : Option ℚ
  isActive : Option Bool

/-- What `uploadProductImage` does with the file of a call, if it has one. -/
inductive Upload where
  | noFile
  | stored (imageUrl : String)
  | refused (error : Err)

/-- The `catch` of `create` and `update`: a taken SKU is a conflict. -/
def Products.catchDuplicate (sku : String) (result : Except Err Db) : Except Err Db :=
  match result with
  | .error (.uniqueConstraint _) => .error (.conflict s!"Product with SKU '{sku}' already exists.")
  | result => result

/-- The database transaction of `create`: a product and its empty inventory. -/
def Products.createRows (db : Db) (user : JwtPayload) (dto : CreateProductDto) (sku : String)
    (now : DateTime) : Except Err Db :=
  db.createProductWithInventory
    { idProduct := db.newId
      idMerchant := user.idMerchant
      name := dto.name
      sku := sku
      price := dto.price
      imageUrl := none
      isActive := dto.isActive.getD true
      createdAt := now }
    { idInventory := .cuid (db.seq + 1)
      idProduct := db.newId
      idMerchant := user.idMerchant
      currentStock := 0 }

/-- The rest of `create`: the upload of the file, then the update of the product. -/
def Products.attachImage (db : Db) (idProduct : Ident) (upload : Upload) : Db × Option Err :=
  match upload with
  | .noFile => (db, none)
  | .refused e => (db, some e)
  | .stored imageUrl =>
      match db.updateProduct idProduct fun p => { p with imageUrl := some imageUrl } with
      -- the product stays without its image
      | .error e => (db, some e)
      | .ok db' => (db', none)

/-- The SKU of the dto, or one made of the time. -/
def CreateProductDto.generatedSku (dto : CreateProductDto) (now : DateTime) : String :=
  dto.sku.getD s!"SKU-{now}"

/-- `ProductsService.create`: the product stays when the upload or the update after it
throws, so the database comes with the exception. -/
def Products.create (db : Db) (user : JwtPayload) (dto : CreateProductDto) (upload : Upload)
    (now : DateTime) : Db × Option Err :=
  match Products.catchDuplicate (dto.generatedSku now)
      (Products.createRows db user dto (dto.generatedSku now) now) with
  | .error e => (db, some e)
  | .ok db' => Products.attachImage db' db.newId upload

/-- The product of the user's merchant. -/
def Products.findOwn (db : Db) (user : JwtPayload) (productId : Ident) : Option Product :=
  db.products.rows.find? fun p =>
    decide (p.idProduct = productId ∧ p.idMerchant = user.idMerchant)

/-- The columns that `update` writes. -/
def Product.updated (dto : UpdateProductDto) (imageUrl : Option String) (p : Product) :
    Product :=
  { p with
    name := dto.name.getD p.name
    sku := dto.sku.getD p.sku
    price := dto.price.getD p.price
    isActive := dto.isActive.getD p.isActive
    imageUrl := imageUrl.or p.imageUrl }

/-- The image reference of an update, if its file could be stored. -/
def Upload.imageUrl : Upload → Except Err (Option String)
  | .noFile => .ok none
  | .stored imageUrl => .ok (some imageUrl)
  | .refused e => .error e

/-- `ProductsService.update`. -/
def Products.update (db : Db) (user : JwtPayload) (productId : Ident) (dto : UpdateProductDto)
    (upload : Upload) : Except Err Db := do
  let _ ← orThrow (Products.findOwn db user productId)
    (.notFound "Product not found or does not belong to your store.")
  require (dto.price.all fun x => decide (0 ≤ x)) (.badRequest "Price must not be negative.")
  let imageUrl ← upload.imageUrl
  -- the message names the SKU of the payload, which need not have one
  Products.catchDuplicate (dto.sku.getD "undefined")
    (db.updateProduct productId (Product.updated dto imageUrl))

/-- `ProductsService.remove`. -/
def Products.remove (db : Db) (user : JwtPayload) (productId : Ident) : Except Err Db := do
  let _ ← orThrow (Products.findOwn db user productId)
    (.notFound "Product not found or does not belong to your store.")
  db.updateProduct productId fun p => { p with isActive := false }

/-! ## Manual adjustments -/

structure AdjustStockDto where
  quantity : ℚ
  notes : Option String

/-- What `adjustStock` has read when it starts its database transaction. -/
structure StockRead where
  product : Product
  inventory : Inventory

/-- The lookup and the test of `adjustStock`. -/
def Products.adjustStockRead (db : Db) (user : JwtPayload) (productId : Ident)
    (dto : AdjustStockDto) : Except Err StockRead := do
  let product ← orThrow (Products.findOwn db user productId)
    (.notFound "Product or inventory not found.")
  let inventory ← orThrow (db.inventories.findUnique (.product product.idProduct))
    (.notFound "Product or inventory not found.")
  -- tested on what was read, outside the database transaction
  let previousStock := inventory.currentStock
  require (decide (0 ≤ previousStock + dto.quantity))
    (.badRequest s!"Insufficient stock. Current stock is {previousStock}, cannot subtract {|dto.quantity|}")
  return ⟨product, inventory⟩

/-- The movement that `adjustStock` enters. -/
def Products.adjustment (user : JwtPayload) (product : Product) (dto : AdjustStockDto) (n : ℤ) :
    AdjustInventoryParams where
  idProduct := product.idProduct
  idMerchant := user.idMerchant
  idUser := user.sub
  idTransaction := none
  quantityChange := n
  movementType := .ADJUSTMENT
  notes := dto.notes.getD "Manual stock adjustment"

/-- The database transaction of `adjustStock`. -/
def Products.adjustStockWrite (db : Db) (user : JwtPayload) (read : StockRead)
    (dto : AdjustStockDto) (now : DateTime) : Except Err Db := do
  let n ← toInt "current_stock" dto.quantity
  adjustInventoryAndHistory db now (Products.adjustment user read.product dto n)

/-- The newest history row of a product of the merchant. -/
def Products.newestHistory (db : Db) (user : JwtPayload) (idProduct : Ident) :
    Option StockHistory :=
  let own := db.stockHistories.filter fun h =>
    decide (h.idProduct = idProduct ∧ h.idMerchant = some user.idMerchant)
  own.foldl (fun newest h =>
    if newest.all fun n => decide (n.createdAt ≤ h.createdAt) then some h else newest) none

/-- What `adjustStock` answers. -/
structure StockAdjusted where
  idProduct : Ident
  previousStock : ℤ
  currentStock : ℤ
  stockHistory : Option StockHistory

/-- `ProductsService.adjustStock`. -/
def Products.adjustStock (db : Db) (user : JwtPayload) (productId : Ident)
    (dto : AdjustStockDto) (now : DateTime) : Except Err (StockAdjusted × Db) := do
  let read ← Products.adjustStockRead db user productId dto
  let db' ← Products.adjustStockWrite db user read dto now
  -- the answer is read inside the database transaction
  let updated ← orThrow (db'.inventories.findUnique (.id read.inventory.idInventory))
    (.recordNotFound "Inventory")
  return (⟨read.product.idProduct, read.inventory.currentStock, updated.currentStock,
    Products.newestHistory db' user read.product.idProduct⟩, db')

end KPos
