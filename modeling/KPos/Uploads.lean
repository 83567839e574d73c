/-
# Product images in the storage (`supabase-storage.service.ts`, `products.service.ts`)

The bucket is a partial function from paths to contents.  `create` and `update` use it in
turn with the database: `create` commits its rows before it looks at the file, `update`
uploads the new object and drops the old one before it writes the row.  Each outside
call may fail.

* `create_db`, `update_db` : what the calls do to the database, with the upload as an outcome;
* `failed_creation_iff` : when a creation that throws leaves the tables as they were;
* `create_again` : a creation that left its rows is refused as a duplicate when it is repeated.
-/
import KPos.Catalogue

namespace KPos

/-! ## The storage -/

structure MulterFile where
  mimetype : String
  size : ℕ
  buffer : List UInt8

def allowedMimeTypes : List String := ["image/jpeg", "image/png", "image/webp"]

/-- 5MB. -/
def maxFileSize : ℕ := 5 * 1024 * 1024

def mimeToExt : List (String × String) :=
  [("image/jpeg", "jpg"), ("image/png", "png"), ("image/webp", "webp")]

/-- `MIME_TO_EXT[file.mimetype]`. -/
def MulterFile.ext (file : MulterFile) : String :=
  (mimeToExt.lookup file.mimetype).getD "undefined"

/-- The contents of the bucket by path. -/
abbrev Objects := String → Option (List UInt8)

/-- The client of the storage: whether it is configured, its bucket, and `getPublicUrl`. -/
structure SupabaseStorage where
  configured : Bool
  bucket : String
  getPublicUrl : String → String

/-- `${merchantId}/${productId}.${ext}`. -/
def imagePath (merchantId productId : Ident) (ext : String) : String :=
  s!"{merchantId}/{productId}.{ext}"

/-- What follows the first occurrence of the marker. -/
def sliceAfter (marker : List Char) : List Char → Option (List Char)
  | [] => if marker = [] then some [] else none
  | c :: rest =>
      if marker.isPrefixOf (c :: rest) then some ((c :: rest).drop marker.length)
      else sliceAfter marker rest

def SupabaseStorage.extractPathFromUrl (st : SupabaseStorage) (imageUrl : String) :
    Option String :=
  let marker := s!"/object/public/{st.bucket}/"
  (sliceAfter marker.toList imageUrl.toList).map String.ofList

/-- `uploadProductImage`, whose call of the storage fails with the message `uploadError`, if
there is one. -/
def SupabaseStorage.uploadProductImage (st : SupabaseStorage) (objects : Objects)
    (merchantId productId : Ident) (file : MulterFile) (uploadError : Option String) :
    Except Err (String × Objects) := do
  require (allowedMimeTypes.contains file.mimetype)
    (.badRequest "Invalid file type. Accepted types: image/jpeg, image/png, image/webp")
  require (decide (file.size ≤ maxFileSize)) (.badRequest "File too large. Maximum size is 5MB.")
  require st.configured
    (.raised "Supabase Storage is not configured. Set SUPABASE_URL and SUPABASE_SERVICE_ROLE_KEY environment variables.")
  let path := imagePath merchantId productId file.ext
  match uploadError with
  | some message => .error (.badRequest s!"Failed to upload image: {message}")
  -- `upsert` replaces the object at the path
  | none => .ok (st.getPublicUrl path, Function.update objects path (some file.buffer))

/-- `deleteProductImage`: whatever fails is only logged. -/
def SupabaseStorage.deleteProductImage (st : SupabaseStorage) (objects : Objects)
    (imageUrl : String) (removeError : Option String) : Objects :=
  if imageUrl = "" then objects
  else match st.extractPathFromUrl imageUrl with
  | none => objects
  | some imagePath =>
      if imagePath = "" ∨ st.configured = false ∨ removeError.isSome then objects
      else Function.update objects imagePath none

/-! ## The calls that use it -/

/-- The database and the bucket. -/
structure ProductStore where
  db : Db
  objects : Objects

/-- The messages of the outside calls that fail: the database transaction of `create`, the
upload, the removal of the old object, the update of the row. -/
structure Failures where
  transaction : Option String
  upload : Option String
  remove : Option String
  update : Option String

/-- Nothing fails. -/
def Failures.none : Failures := ⟨.none, .none, .none, .none⟩

/-- A database call that fails with the message, if there is one. -/
def unlessFailed (failure : Option String) (r : Except Err Db) : Except Err Db :=
  match failure with
  | none => r
  | some message => .error (.raised message)

/-- The image part of `create`. -/
def Products.attachFile (st : SupabaseStorage) (σ : ProductStore) (merchantId productId : Ident)
    (file : Option MulterFile) (fails : Failures) : ProductStore × Option Err :=
  match file with
  | none => (σ, none)
  | some file =>
      match st.uploadProductImage σ.objects merchantId productId file fails.upload with
      | .error e => (σ, some e)
      | .ok (imageUrl, objects) =>
          match unlessFailed fails.update
              (σ.db.updateProduct productId fun p => { p with imageUrl := some imageUrl }) with
          | .error e => (⟨σ.db, objects⟩, some e)
          | .ok db' => (⟨db', objects⟩, none)

/-- `ProductsService.create`, with the bucket. -/
def Products.createWithFile (st : SupabaseStorage) (σ : ProductStore) (user : JwtPayload)
    (dto : CreateProductDto) (file : Option MulterFile) (now : DateTime) (fails : Failures) :
    ProductStore × Option Err :=
  match Products.catchDuplicate (dto.generatedSku now) (unlessFailed fails.transaction
      (Products.createRows σ.db user dto (dto.generatedSku now) now)) with
  | .error e => (σ, some e)
  | .ok db' => Products.attachFile st ⟨db', σ.objects⟩ user.idMerchant σ.db.newId file fails

/-- The removal of the old object in `update`. -/
def SupabaseStorage.dropOld (st : SupabaseStorage) (objects : Objects) (old : Option String)
    (imageUrl : String) (removeError : Option String) : Objects :=
  match old with
  | none => objects
  | some url =>
      if url ≠ "" ∧ url ≠ imageUrl then st.deleteProductImage objects url removeError else objects

/-- The row update of `update`. -/
def Products.writeUpdate (σ : ProductStore) (productId : Ident) (dto : UpdateProductDto)
    (imageUrl : Option String) (fails : Failures) : ProductStore × Option Err :=
  match Products.catchDuplicate (dto.sku.getD "undefined") (unlessFailed fails.update
      (σ.db.updateProduct productId (Product.updated dto imageUrl))) with
  | .error e => (σ, some e)
  | .ok db' => (⟨db', σ.objects⟩, none)

/-- `ProductsService.update`, with the bucket. -/
def Products.updateWithFile (st : SupabaseStorage) (σ : ProductStore) (user : JwtPayload)
    (productId : Ident) (dto : UpdateProductDto) (file : Option MulterFile) (fails : Failures) :
    ProductStore × Option Err :=
  match Products.findOwn σ.db user productId with
  | none => (σ, some (.notFound "Product not found or does not belong to your store."))
  | some product =>
      if dto.price.all fun x => decide (0 ≤ x) then
        match file with
        | none => Products.writeUpdate σ productId dto none fails
        | some file =>
            match st.uploadProductImage σ.objects product.idMerchant product.idProduct file
                fails.upload with
            | .error e => (σ, some e)
            | .ok (imageUrl, objects) =>
                -- the old object is gone before the row names the new one
                let objects := st.dropOld objects product.imageUrl imageUrl fails.remove
                Products.writeUpdate ⟨σ.db, objects⟩ productId dto (some imageUrl) fails
      else (σ, some (.badRequest "Price must not be negative."))

/-! ## What the storage takes -/

/-- The storage takes the file. -/
structure SupabaseStorage.Takes (st : SupabaseStorage) (file : MulterFile)
    (uploadError : Option String) : Prop where
  mimetype : allowedMimeTypes.contains file.mimetype = true
  size : file.size ≤ maxFileSize
  configured : st.configured = true
  uploaded : uploadError = none

section Uploads

variable {st : SupabaseStorage} {σ τ : ProductStore} {objects objects' : Objects}
  {m p : Ident} {file : MulterFile} {uploadError : Option String} {user : JwtPayload}
  {fails : Failures} {db db' : Db}

/-- **An upload**: what it needs, and what it leaves at the path of the product. -/
theorem uploadProductImage_eq_ok {imageUrl : String} :
    st.uploadProductImage objects m p file uploadError = .ok (imageUrl, objects') ↔
      st.Takes file uploadError ∧ imageUrl = st.getPublicUrl (imagePath m p file.ext) ∧
        objects' = Function.update objects (imagePath m p file.ext) (some file.buffer) := by
  unfold SupabaseStorage.uploadProductImage
  simp only [bind_eq_ok, require_eq_ok, exists_const, decide_eq_true_eq]
  constructor
  · rintro ⟨hmime, hsize, hconf, h⟩
    cases hup : uploadError with
    | some message =>
      rw [hup] at h
      cases h
    | none =>
      rw [hup] at h
      obtain ⟨rfl, rfl⟩ := Prod.mk.inj (Except.ok.inj h)
      exact ⟨⟨hmime, hsize, hconf, rfl⟩, rfl, rfl⟩
  · rintro ⟨⟨hmime, hsize, hconf, rfl⟩, rfl, rfl⟩
    exact ⟨hmime, hsize, hconf, rfl⟩

/-- The storage takes a file, or the upload throws. -/
theorem uploadProductImage_cases (st : SupabaseStorage) (objects : Objects) (m p : Ident)
    (file : MulterFile) (uploadError : Option String) :
    (∃ e, st.uploadProductImage objects m p file uploadError = .error e) ∧
        ¬ st.Takes file uploadError ∨
      st.uploadProductImage objects m p file uploadError
          = .ok (st.getPublicUrl (imagePath m p file.ext),
            Function.update objects (imagePath m p file.ext) (some file.buffer)) ∧
        st.Takes file uploadError := by
  cases h : st.uploadProductImage objects m p file uploadError with
  | error e =>
    refine Or.inl ⟨⟨e, rfl⟩, fun htakes => ?_⟩
    rw [uploadProductImage_eq_ok.mpr ⟨htakes, rfl, rfl⟩] at h
    cases h
  | ok r =>
    obtain ⟨url, objects'⟩ := r
    obtain ⟨htakes, rfl, rfl⟩ := uploadProductImage_eq_ok.mp h
    exact Or.inr ⟨rfl, htakes⟩

/-- What the upload of a call comes to. -/
def SupabaseStorage.uploadOf (st : SupabaseStorage) (objects : Objects)
    (merchantId productId : Ident) (file : Option MulterFile) (uploadError : Option String) :
    Upload :=
  match file with
  | none => .noFile
  | some file =>
      match st.uploadProductImage objects merchantId productId file uploadError with
      | .error e => .refused e
      | .ok (imageUrl, _) => .stored imageUrl

/-- **`create`** does to the database what `Products.create` does with the outcome of the
upload, when no call of the database fails. -/
theorem create_db (dto : CreateProductDto) (file : Option MulterFile) (now : DateTime)
    (h₁ : fails.transaction = none) (h₂ : fails.update = none) :
    ((Products.createWithFile st σ user dto file now fails).1.db,
      (Products.createWithFile st σ user dto file now fails).2)
    = Products.create σ.db user dto
        (st.uploadOf σ.objects user.idMerchant σ.db.newId file fails.upload) now := by
  unfold Products.createWithFile Products.create
  rw [h₁]
  unfold unlessFailed
  cases Products.catchDuplicate (dto.generatedSku now)
    (Products.createRows σ.db user dto (dto.generatedSku now) now) with
  | error e => rfl
  | ok db' =>
    unfold Products.attachFile Products.attachImage SupabaseStorage.uploadOf
    cases file with
    | none => rfl
    | some file =>
      dsimp only
      cases st.uploadProductImage σ.objects user.idMerchant σ.db.newId file fails.upload with
      | error e => rfl
      | ok r =>
        dsimp only
        rw [h₂]
        unfold unlessFailed
        cases db'.updateProduct σ.db.newId fun p => { p with imageUrl := some r.1 } <;> rfl

/-- A write that throws leaves the database. -/
theorem writeUpdate_db (productId : Ident) (dto : UpdateProductDto) (imageUrl : Option String)
    (h : fails.update = none) :
    (Products.writeUpdate σ productId dto imageUrl fails).1.db
      = commit σ.db (Products.catchDuplicate (dto.sku.getD "undefined")
          (σ.db.updateProduct productId (Product.updated dto imageUrl))) := by
  unfold Products.writeUpdate
  rw [h]
  unfold unlessFailed
  cases Products.catchDuplicate (dto.sku.getD "undefined")
    (σ.db.updateProduct productId (Product.updated dto imageUrl)) <;> rfl

/-- The product that a lookup finds. -/
theorem findOwn_eq_some {productId : Ident} {product : Product}
    (h : Products.findOwn db user productId = some product) :
    product ∈ db.products.rows ∧ product.idProduct = productId ∧
      product.idMerchant = user.idMerchant := by
  unfold Products.findOwn at h
  have hfound := List.find?_some h
  rw [decide_eq_true_eq] at hfound
  exact ⟨List.mem_of_find?_eq_some h, hfound⟩

/-- **`update`** does to the database what `Products.update` does with the outcome of the
upload, when no call of the database fails. -/
theorem update_db (productId : Ident) (dto : UpdateProductDto) (file : Option MulterFile)
    (h : fails.update = none) :
    (Products.updateWithFile st σ user productId dto file fails).1.db
      = commit σ.db (Products.update σ.db user productId dto
          (st.uploadOf σ.objects user.idMerchant productId file fails.upload)) := by
  unfold Products.updateWithFile Products.update
  cases hfind : Products.findOwn σ.db user productId with
  | none => rfl
  | some product =>
    obtain ⟨-, hid, hm⟩ := findOwn_eq_some hfind
    unfold SupabaseStorage.uploadOf orThrow require
    dsimp only
    rw [hid, hm]
    cases hprice : dto.price.all fun x => decide (0 ≤ x) with
    | false => rfl
    | true =>
      cases file with
      | none => exact writeUpdate_db productId dto none h
      | some file =>
        dsimp only
        cases st.uploadProductImage σ.objects user.idMerchant productId file fails.upload with
        | error e => rfl
        | ok r =>
          exact writeUpdate_db (σ := ⟨σ.db, _⟩) productId dto (some r.1) h

/-! ## Creations that fail -/

/-- The database takes the rows of a creation. -/
structure RowsAccepted (db : Db) (user : JwtPayload) (dto : CreateProductDto) (now : DateTime) :
    Prop where
  price : fitsDecimal dto.price = true
  merchant : db.merchants.has (.id user.idMerchant) = true
  sku : db.products.has (.sku user.idMerchant (dto.generatedSku now)) = false

variable {dto : CreateProductDto} {now : DateTime}

/-- **When the rows of a creation are written.** -/
theorem createRows_isOk (hdb : Stocked db) :
    (∃ db', Products.createRows db user dto (dto.generatedSku now) now = .ok db') ↔
      RowsAccepted db user dto now := by
  unfold Products.createRows
  simp only [createProductWithInventory_eq_ok]
  constructor
  · rintro ⟨_, hprice, hm, -, ps, _, hps, -⟩
    refine ⟨hprice, hm, ?_⟩
    apply Table.insert_isSome_iff.mp (Option.isSome_iff_exists.mpr ⟨ps, hps⟩)
    simp [UniqueKeys.keys, Product.stored]
  · rintro ⟨hprice, hm, hsku⟩
    obtain ⟨hid, hinvId, hinvProduct⟩ := hdb.has_newId
    -- the keys of both rows are free
    obtain ⟨ps, hps⟩ : ∃ ps, db.products.insert (Product.stored
        { idProduct := db.newId, idMerchant := user.idMerchant, name := dto.name,
          sku := dto.generatedSku now, price := dto.price, imageUrl := none,
          isActive := dto.isActive.getD true, createdAt := now }) = some ps := by
      rw [← Option.isSome_iff_exists, Table.insert_isSome_iff]
      intro j hj
      have hj : j = .id db.newId ∨ j = .sku user.idMerchant (dto.generatedSku now) := by
        simpa [UniqueKeys.keys, Product.stored] using hj
      rcases hj with rfl | rfl
      · exact hid
      · exact hsku
    obtain ⟨is, his⟩ : ∃ is, db.inventories.insert
        { idInventory := .cuid (db.seq + 1), idProduct := db.newId,
          idMerchant := user.idMerchant, currentStock := 0 } = some is := by
      rw [← Option.isSome_iff_exists, Table.insert_isSome_iff]
      intro j hj
      have hj : j = .id (.cuid (db.seq + 1)) ∨ j = .product db.newId := by
        simpa [UniqueKeys.keys] using hj
      rcases hj with rfl | rfl
      · exact hinvId
      · exact hinvProduct
    refine ⟨_, hprice, hm, hm, ps, is, hps, ?_, his, rfl⟩
    rw [Table.has_of_insert hps]
    exact Or.inr List.mem_cons_self

/-- A stored price fits its column again. -/
theorem fitsDecimal_roundCents (x : ℚ) : fitsDecimal (roundCents x) = fitsDecimal x := by
  unfold fitsDecimal
  rw [roundCents_roundCents]

/-- The image reference of a new product can be written. -/
theorem updateProduct_newImage (imageUrl : String)
    (h : Products.createRows db user dto (dto.generatedSku now) now = .ok db') :
    ∃ db₁, db'.updateProduct db.newId (fun p => { p with imageUrl := some imageUrl })
      = .ok db₁ := by
  obtain ⟨hprice, -, -, ps, is, hps, -, -, rfl⟩ := createProductWithInventory_eq_ok.mp h
  simp only [updateProduct_eq_ok]
  have hfound := Table.findUnique_eq_some.mpr
    ⟨(Table.mem_insert hps).mpr (Or.inr rfl), product_id_mem_keys.mpr rfl⟩
  have hreplace : (ps.replace (.id db.newId)
      fun p => Product.stored { p with imageUrl := some imageUrl }).isSome := by
    apply Table.replace_isSome
    intro r hr hkey j hj s hs hjs
    -- the keys of a product are not in its image reference
    have hj : j ∈ UniqueKeys.keys r := hj
    rwa [← Table.eq_of_key hr hs hj hjs]
  obtain ⟨ps', hps'⟩ := Option.isSome_iff_exists.mp hreplace
  refine ⟨_, _, ps', hfound, ?_, hps', rfl⟩
  exact (fitsDecimal_roundCents dto.price).trans hprice

/-- The products and the inventories are as before. -/
def NothingLeft (σ τ : ProductStore) : Prop :=
  τ.db.products = σ.db.products ∧ τ.db.inventories = σ.db.inventories

/-- New rows are left. -/
theorem not_nothingLeft {db' : Db}
    (h : Products.createRows σ.db user dto (dto.generatedSku now) now = .ok db')
    (hτ : τ.db = db') : ¬ NothingLeft σ τ := by
  rintro ⟨hproducts, -⟩
  rw [hτ] at hproducts
  obtain ⟨-, -, -, ps, is, hps, -, -, rfl⟩ := createProductWithInventory_eq_ok.mp h
  have hlength := congrArg List.length (Table.insert_eq_some.mp hps).2
  have hsame : ps = σ.db.products := hproducts
  rw [hsame, List.length_append, List.length_singleton] at hlength
  omega

/-- What a creation does once its rows are written. -/
theorem createWithFile_eq {db' : Db} (file : Option MulterFile)
    (htransaction : fails.transaction = none)
    (h : Products.createRows σ.db user dto (dto.generatedSku now) now = .ok db') :
    Products.createWithFile st σ user dto file now fails
      = Products.attachFile st ⟨db', σ.objects⟩ user.idMerchant σ.db.newId file fails := by
  unfold Products.createWithFile unlessFailed
  rw [htransaction, h]
  rfl

/-- A creation whose rows are not written changes nothing. -/
theorem createWithFile_refused (hdb : Stocked σ.db) (file : Option MulterFile)
    (h : ¬ (fails.transaction = none ∧ RowsAccepted σ.db user dto now)) :
    (Products.createWithFile st σ user dto file now fails).1 = σ := by
  unfold Products.createWithFile
  cases hrows : Products.catchDuplicate (dto.generatedSku now) (unlessFailed fails.transaction
      (Products.createRows σ.db user dto (dto.generatedSku now) now)) with
  | error e => rfl
  | ok db' =>
    have hwritten := catchDuplicate_eq_ok hrows
    exfalso
    apply h
    cases htransaction : fails.transaction with
    | some message =>
      rw [htransaction] at hwritten
      cases hwritten
    | none =>
      rw [htransaction] at hwritten
      exact ⟨rfl, (createRows_isOk hdb).mp ⟨db', hwritten⟩⟩

/-- The image part throws when the storage refuses the file or the update fails, and only
then. -/
theorem attachFile_throws_iff {db' : Db} (file : MulterFile)
    (h : Products.createRows σ.db user dto (dto.generatedSku now) now = .ok db') :
    (Products.attachFile st ⟨db', σ.objects⟩ user.idMerchant σ.db.newId (some file) fails).2
        = none ↔ st.Takes file fails.upload ∧ fails.update = none := by
  unfold Products.attachFile
  dsimp only
  rcases uploadProductImage_cases st σ.objects user.idMerchant σ.db.newId file fails.upload with
    ⟨⟨e, he⟩, hrefused⟩ | ⟨hstored, htakes⟩
  · rw [he]
    simp [hrefused]
  · rw [hstored]
    obtain ⟨db₁, h₁⟩ := updateProduct_newImage (st.getPublicUrl
      (imagePath user.idMerchant σ.db.newId file.ext)) h
    dsimp only
    cases hupdate : fails.update with
    | some message => simp [unlessFailed]
    | none => simp [unlessFailed, h₁, htakes]

/-- An image part that throws leaves the database as it was. -/
theorem attachFile_db (file : Option MulterFile)
    (h : (Products.attachFile st σ m p file fails).2 ≠ none) :
    (Products.attachFile st σ m p file fails).1.db = σ.db := by
  unfold Products.attachFile at h ⊢
  cases file with
  | none => rfl
  | some file =>
    dsimp only at h ⊢
    cases hupload : st.uploadProductImage σ.objects m p file fails.upload with
    | error e => rfl
    | ok r =>
      rw [hupload] at h
      dsimp only at h ⊢
      cases hupdate : unlessFailed fails.update
          (σ.db.updateProduct p fun q => { q with imageUrl := some r.1 }) with
      | error e => rfl
      | ok db' =>
        rw [hupdate] at h
        exact absurd rfl h

/-- **A creation that throws leaves nothing behind** exactly when its rows were refused, or
nothing after them could throw. -/
theorem failed_creation_iff {us : Table User} (st : SupabaseStorage) (user : JwtPayload)
    (dto : CreateProductDto) (file : Option MulterFile) (now : DateTime) (fails : Failures)
    (hreach : Reachable us σ.db) :
    ((Products.createWithFile st σ user dto file now fails).2 ≠ none →
        NothingLeft σ (Products.createWithFile st σ user dto file now fails).1) ↔
      (fails.transaction = none → RowsAccepted σ.db user dto now →
        ∀ f, file = some f → st.Takes f fails.upload ∧ fails.update = none) := by
  constructor
  · rintro hleaves htransaction haccepted f rfl
    obtain ⟨db', hrows⟩ := (createRows_isOk hreach.stocked).mpr haccepted
    rw [createWithFile_eq (some f) htransaction hrows] at hleaves
    rw [← attachFile_throws_iff f hrows]
    by_contra hthrows
    exact not_nothingLeft hrows (attachFile_db (some f) hthrows) (hleaves hthrows)
  · intro hgoes hthrows
    by_cases hwritten : fails.transaction = none ∧ RowsAccepted σ.db user dto now
    · obtain ⟨htransaction, haccepted⟩ := hwritten
      obtain ⟨db', hrows⟩ := (createRows_isOk hreach.stocked).mpr haccepted
      rw [createWithFile_eq file htransaction hrows] at hthrows
      exfalso
      apply hthrows
      cases file with
      | none => rfl
      | some f => exact (attachFile_throws_iff f hrows).mpr (hgoes htransaction haccepted f rfl)
    · rw [createWithFile_refused hreach.stocked file hwritten]
      exact ⟨rfl, rfl⟩

/-- A taken SKU breaks the unique constraint. -/
theorem createRows_duplicate {sku : String} (hprice : fitsDecimal dto.price = true)
    (htaken : db.products.has (.sku user.idMerchant sku) = true) :
    Products.createRows db user dto sku now = .error (.uniqueConstraint "Product") := by
  unfold Products.createRows Db.createProductWithInventory
  have hnone : db.products.insert (Product.stored
      { idProduct := db.newId, idMerchant := user.idMerchant, name := dto.name, sku := sku,
        price := dto.price, imageUrl := none, isActive := dto.isActive.getD true,
        createdAt := now }) = none := by
    rw [← Option.not_isSome_iff_eq_none, Table.insert_isSome_iff]
    intro hfree
    have hsku := hfree (.sku user.idMerchant sku) (by simp [UniqueKeys.keys, Product.stored])
    rw [htaken] at hsku
    cases hsku
  rw [hnone]
  unfold require
  rw [if_pos hprice]
  rfl

/-- **A creation that left its rows is refused as a duplicate** when it is repeated with the
same SKU. -/
theorem create_again {us : Table User} {sku : String} {now' : DateTime} {fails' : Failures}
    (hreach : Reachable us σ.db) (hsku : dto.sku = some sku) (file file' : Option MulterFile)
    (htransaction : fails.transaction = none) (haccepted : RowsAccepted σ.db user dto now)
    (hthrows : (Products.createWithFile st σ user dto file now fails).2 ≠ none)
    (htransaction' : fails'.transaction = none) :
    (Products.createWithFile st (Products.createWithFile st σ user dto file now fails).1 user dto
        file' now' fails').2
      = some (.conflict s!"Product with SKU '{sku}' already exists.") := by
  obtain ⟨db', hrows⟩ := (createRows_isOk hreach.stocked).mpr haccepted
  have hgenerated : ∀ t, dto.generatedSku t = sku := by
    intro t
    unfold CreateProductDto.generatedSku
    rw [hsku]
    rfl
  rw [createWithFile_eq file htransaction hrows] at hthrows ⊢
  have hdb := attachFile_db file hthrows
  generalize Products.attachFile st ⟨db', σ.objects⟩ user.idMerchant σ.db.newId file fails = r
    at hdb
  obtain ⟨hprice, -, -, ps, is, hps, -, -, rfl⟩ := createProductWithInventory_eq_ok.mp hrows
  -- the row that was left has the SKU
  have htaken : r.1.db.products.has (.sku user.idMerchant sku) = true := by
    rw [hdb]
    refine (Table.has_of_insert hps).mpr (Or.inr ?_)
    rw [← hgenerated now]
    simp [UniqueKeys.keys, Product.stored]
  unfold Products.createWithFile unlessFailed
  rw [htransaction', hgenerated, createRows_duplicate hprice htaken]
  rfl

end Uploads

/-! ## A creation in the shop -/

/-- A storage whose URLs are those of a project. -/
def shopStorage : SupabaseStorage where
  configured := true
  bucket := "products"
  getPublicUrl path := "https://shop.supabase.co/storage/v1/object/public/products/" ++ path

/-- A picture. -/
def shopFile (mimetype : String) (buffer : List UInt8) : MulterFile := ⟨mimetype, 2, buffer⟩

def coffee : CreateProductDto := ⟨"Coffee", some "COFFEE", 3, none⟩

/-- The upload fails. -/
def uploadFails : Failures := ⟨none, some "timeout", none, none⟩

/-- A second product with the SKU of the first is refused, and nothing is left of it. -/
theorem failed_creation_duplicate :
    (Products.createWithFile shopStorage ⟨shop, fun _ => none⟩ shopOwner
        ⟨"Green tea", some "TEA", 3, none⟩ (some (shopFile "image/png" [1, 2])) 1
        Failures.none).2 ≠ none ∧
      NothingLeft ⟨shop, fun _ => none⟩ (Products.createWithFile shopStorage
        ⟨shop, fun _ => none⟩ shopOwner ⟨"Green tea", some "TEA", 3, none⟩
        (some (shopFile "image/png" [1, 2])) 1 Failures.none).1 := by
  have hthrows : (Products.createWithFile shopStorage ⟨shop, fun _ => none⟩ shopOwner
      ⟨"Green tea", some "TEA", 3, none⟩ (some (shopFile "image/png" [1, 2])) 1
      Failures.none).2 ≠ none := by decide +kernel
  refine ⟨hthrows, (failed_creation_iff shopStorage shopOwner ⟨"Green tea", some "TEA", 3, none⟩
    (some (shopFile "image/png" [1, 2])) 1 Failures.none (reachable_shopWith systemUsers)).mpr
    (fun _ haccepted => ?_) hthrows⟩
  have htaken : shop.products.has (.sku shopOwner.idMerchant "TEA") = true := by decide +kernel
  exact absurd haccepted.sku (by rw [Bool.not_eq_false]; exact htaken)

/-- **A creation that throws leaves its rows** when the upload fails. -/
theorem creation_leaves_rows : ¬ ∀ (us : Table User) (st : SupabaseStorage) (σ : ProductStore)
    (user : JwtPayload) (dto : CreateProductDto) (file : Option MulterFile) (now : DateTime)
    (fails : Failures), Reachable us σ.db →
      (Products.createWithFile st σ user dto file now fails).2 ≠ none →
        NothingLeft σ (Products.createWithFile st σ user dto file now fails).1 := by
  intro h
  obtain ⟨hproducts, -⟩ := h systemUsers shopStorage ⟨shop, fun _ => none⟩ shopOwner coffee
    (some (shopFile "image/png" [1, 2])) 1 uploadFails (reachable_shopWith systemUsers)
    (by decide +kernel)
  have hlength := congrArg (fun t : Table Product => t.rows.length) hproducts
  revert hlength
  decide +kernel

end KPos
