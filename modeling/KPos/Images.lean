/-
# Image references (`products.service.ts`, `supabase-storage.service.ts`)

A product names its image by the public URL of an object in the bucket.  Calls of `create`
and `update` run one after the other, and any of their outside calls may fail.

* `Present` : every image reference names an object that is there;
* `Untouched` : what a call that throws should leave;
* `Spares` : the condition on a call, that no row update fails after the old image is gone;
* `images_present` : under the condition both hold in every run;
* `spares_iff` : on one call, the condition is exact;
* `image_dangles` : without it, a reference dangles.
-/
import KPos.Uploads

namespace KPos

open Runs

/-! ## Paths of objects -/

/-- The parts on both sides of the first occurrence of an entry. -/
theorem append_cons_cancel {α : Type} [DecidableEq α] {a : α} {l₁ l₂ r₁ r₂ : List α}
    (h₁ : a ∉ l₁) (h₂ : a ∉ l₂) (h : l₁ ++ a :: r₁ = l₂ ++ a :: r₂) : l₁ = l₂ ∧ r₁ = r₂ := by
  have htake : ∀ l r : List α, a ∉ l → (l ++ a :: r).takeWhile (fun b => decide (b ≠ a)) = l := by
    intro l r hl
    rw [List.takeWhile_append_of_pos fun b hb => decide_eq_true (ne_of_mem_of_not_mem hb hl),
      List.takeWhile_cons_of_neg (by simp), List.append_nil]
  have hleft : l₁ = l₂ := by rw [← htake l₁ r₁ h₁, h, htake l₂ r₂ h₂]
  rw [hleft] at h
  exact ⟨hleft, List.tail_eq_of_cons_eq (List.append_cancel_left h)⟩

/-- The characters of a generated id. -/
theorem toList_cuid (n : ℕ) : (toString (Ident.cuid n)).toList = 'c' :: Nat.toDigits 10 n := by
  show (s!"c{n}").toList = _
  rw [← Nat.toList_repr]
  simp only [String.toList_append]
  rfl

theorem not_mem_cuid {c : Char} (hc : c.isDigit = false) (hne : c ≠ 'c') (n : ℕ) :
    c ∉ 'c' :: Nat.toDigits 10 n := by
  intro hmem
  rcases List.mem_cons.mp hmem with heq | hmem
  · exact hne heq
  · rw [Nat.isDigit_of_mem_toDigits (by decide) (by decide) hmem] at hc
    cases hc

theorem toList_imagePath (m p : ℕ) (ext : String) :
    (imagePath (.cuid m) (.cuid p) ext).toList
      = ('c' :: Nat.toDigits 10 m) ++ '/' :: (('c' :: Nat.toDigits 10 p) ++ '.' :: ext.toList) := by
  have hpath : imagePath (.cuid m) (.cuid p) ext
      = toString (Ident.cuid m) ++ "/" ++ toString (Ident.cuid p) ++ "." ++ ext := rfl
  rw [hpath, ← toList_cuid, ← toList_cuid]
  simp only [String.toList_append, List.append_assoc]
  rfl

/-- A path tells the product. -/
theorem imagePath_inj {m m' p p' : ℕ} {ext ext' : String}
    (h : imagePath (.cuid m) (.cuid p) ext = imagePath (.cuid m') (.cuid p') ext') : p = p' := by
  have hlist := congrArg String.toList h
  rw [toList_imagePath, toList_imagePath] at hlist
  obtain ⟨-, hrest⟩ := append_cons_cancel (not_mem_cuid (by decide) (by decide) m)
    (not_mem_cuid (by decide) (by decide) m') hlist
  obtain ⟨hp, -⟩ := append_cons_cancel (not_mem_cuid (by decide) (by decide) p)
    (not_mem_cuid (by decide) (by decide) p') hrest
  have hdigits := congrArg (fun l => Nat.ofDigitChars 10 l 0) (List.tail_eq_of_cons_eq hp)
  simpa [Nat.ofDigitChars_ten_toDigits] using hdigits

theorem imagePath_ne_empty (m p : ℕ) (ext : String) : imagePath (.cuid m) (.cuid p) ext ≠ "" := by
  intro h
  have hlist := congrArg String.toList h
  rw [toList_imagePath] at hlist
  cases hlist

/-! ## Calls and what should hold of them -/

/-- The public URL of an image leads back to its path. -/
def SupabaseStorage.Inverse (st : SupabaseStorage) : Prop :=
  ∀ m p : ℕ, ∀ ext ∈ mimeToExt.map Prod.snd,
    st.extractPathFromUrl (st.getPublicUrl (imagePath (.cuid m) (.cuid p) ext))
      = some (imagePath (.cuid m) (.cuid p) ext)

/-- A call of `create` or `update`. -/
inductive ImageCall where
  | create (user : JwtPayload) (dto : CreateProductDto) (file : Option MulterFile)
      (now : DateTime) (fails : Failures)
  | update (user : JwtPayload) (productId : Ident) (dto : UpdateProductDto)
      (file : Option MulterFile) (fails : Failures)

/-- What a call leaves, and what it throws. -/
def ImageCall.run (st : SupabaseStorage) (σ : ProductStore) : ImageCall → ProductStore × Option Err
  | .create user dto file now fails => Products.createWithFile st σ user dto file now fails
  | .update user productId dto file fails =>
      Products.updateWithFile st σ user productId dto file fails

/-- The system of calls run one after the other. -/
def imageNext (st : SupabaseStorage) (σ : ProductStore) (c : ImageCall) : Option ProductStore :=
  some (c.run st σ).1

/-- Every image reference names an object that is there. -/
def Present (st : SupabaseStorage) (σ : ProductStore) : Prop :=
  ∀ p ∈ σ.db.products.rows, ∀ url, p.imageUrl = some url →
    ∃ path, st.extractPathFromUrl url = some path ∧ (σ.objects path).isSome

/-- The products are still there with their references, and the objects that these name have
the content they had. -/
def Untouched (st : SupabaseStorage) (σ τ : ProductStore) : Prop :=
  ∀ p ∈ σ.db.products.rows, ∀ url path, p.imageUrl = some url →
    st.extractPathFromUrl url = some path →
      p ∈ τ.db.products.rows ∧ τ.objects path = σ.objects path

/-- The database takes the row update of a product. -/
structure UpdateAccepted (db : Db) (product : Product) (dto : UpdateProductDto)
    (fails : Failures) : Prop where
  served : fails.update = none
  price : fitsDecimal (dto.price.getD product.price) = true
  sku : ∀ sku, dto.sku = some sku → ∀ q ∈ db.products.rows,
    q.idMerchant = product.idMerchant → q.sku = sku → q.idProduct = product.idProduct

/-- A file that the storage takes leaves the image of the product: there is none, it is the
same picture under the same name, or its removal fails. -/
def Harmless (st : SupabaseStorage) (σ : ProductStore) (product : Product) (file : MulterFile)
    (fails : Failures) : Prop :=
  let path := imagePath product.idMerchant product.idProduct file.ext
  ∀ url, product.imageUrl = some url →
    if url = st.getPublicUrl path then σ.objects path = some file.buffer else fails.remove ≠ none

/-- The condition on a call: when an update stores a file that is not harmless, the database
takes the row update after it. -/
def Spares (st : SupabaseStorage) (σ : ProductStore) : ImageCall → Prop
  | .create .. => True
  | .update user productId dto file fails => ∀ product f,
      Products.findOwn σ.db user productId = some product →
      (dto.price.all fun x => decide (0 ≤ x)) = true → file = some f →
      st.Takes f fails.upload →
        UpdateAccepted σ.db product dto fails ∨ Harmless st σ product f fails

/-! ## The row update -/

section Rows

variable {db db' : Db} {product : Product} {dto : UpdateProductDto} {imageUrl : Option String}
  {fails : Failures} {σ : ProductStore} {productId : Ident}

/-- The rows after an update of a product. -/
theorem mem_updateProduct {f : Product → Product} {r : Product}
    (h : db.updateProduct productId f = .ok db') (hr : r ∈ db'.products.rows) :
    (∃ p ∈ db.products.rows, p.idProduct = productId ∧ r = (f p).stored) ∨
      r ∈ db.products.rows ∧ r.idProduct ≠ productId := by
  obtain ⟨-, ps, -, -, hps, rfl⟩ := updateProduct_eq_ok.mp h
  have hrows : r ∈ ps.rows := hr
  rw [Table.rows_replace hps] at hrows
  obtain ⟨p, hp, rfl⟩ := List.mem_map.mp hrows
  by_cases hkey : ProductKey.id productId ∈ UniqueKeys.keys p
  · rw [if_pos hkey]
    exact Or.inl ⟨p, hp, product_id_mem_keys.mp hkey, rfl⟩
  · rw [if_neg hkey]
    exact Or.inr ⟨hp, fun h => hkey (product_id_mem_keys.mpr h)⟩

/-- **When the database takes the row update** of a product. -/
theorem updateProduct_isOk (hp : product ∈ db.products.rows) (hid : product.idProduct = productId)
    (hserved : fails.update = none) :
    (∃ db', db.updateProduct productId (Product.updated dto imageUrl) = .ok db') ↔
      UpdateAccepted db product dto fails := by
  have hkey : ProductKey.id productId ∈ UniqueKeys.keys product := product_id_mem_keys.mpr hid
  have hfound := Table.findUnique_eq_some.mpr ⟨hp, hkey⟩
  simp only [updateProduct_eq_ok]
  constructor
  · rintro ⟨_, p, ps, hfind, hprice, hps, -⟩
    obtain rfl : product = p := Option.some.inj (hfound.symm.trans hfind)
    refine ⟨hserved, hprice, fun sku hsku q hq hm hqs => ?_⟩
    by_contra hne
    -- the other product and the updated one would share the SKU
    have hqrow : q ∈ ps.rows := by
      rw [Table.rows_replace hps, List.mem_map]
      refine ⟨q, hq, if_neg ?_⟩
      rw [product_id_mem_keys, ← hid]
      exact hne
    have hprow : (Product.updated dto imageUrl product).stored ∈ ps.rows := by
      rw [Table.rows_replace hps, List.mem_map]
      exact ⟨product, hp, if_pos hkey⟩
    have hsame := Table.eq_of_key (k := .sku product.idMerchant sku) hqrow hprow
      (by simp [UniqueKeys.keys, hm, hqs])
      (by simp [UniqueKeys.keys, Product.stored, Product.updated, hsku])
    have hids := congrArg Product.idProduct hsame
    exact hne hids
  · rintro ⟨-, hprice, hsku⟩
    have hreplace : (db.products.replace (.id productId)
        fun p => (Product.updated dto imageUrl p).stored).isSome := by
      apply Table.replace_isSome
      intro r hr hrkey j hj s hs hjs
      obtain rfl := Table.eq_of_key hp hr hkey hrkey
      rw [product_id_mem_keys, ← hid]
      have hj : j = .id product.idProduct ∨
          j = .sku product.idMerchant (dto.sku.getD product.sku) := by
        simpa [UniqueKeys.keys, Product.stored, Product.updated] using hj
      rcases hj with rfl | rfl
      · exact product_id_mem_keys.mp hjs
      · have hs' : s.idMerchant = product.idMerchant ∧ s.sku = dto.sku.getD product.sku := by
          simpa [UniqueKeys.keys, eq_comm] using hjs
        cases hd : dto.sku with
        | some sku =>
          rw [hd] at hs'
          exact hsku sku hd s hs hs'.1 hs'.2
        | none =>
          rw [hd] at hs'
          have hsame := Table.eq_of_key (k := .sku product.idMerchant product.sku) hs hp
            (by simp [UniqueKeys.keys, hs'.1, hs'.2]) (by simp [UniqueKeys.keys])
          exact congrArg Product.idProduct hsame
    obtain ⟨ps, hps⟩ := Option.isSome_iff_exists.mp hreplace
    exact ⟨_, product, ps, hfound, hprice, hps, rfl⟩

/-- A row update is made, or it throws and nothing changes. -/
theorem writeUpdate_cases (dto : UpdateProductDto) (imageUrl : Option String) (fails : Failures)
    (hp : product ∈ σ.db.products.rows) (hid : product.idProduct = productId) :
    (UpdateAccepted σ.db product dto fails ∧ ∃ db',
        σ.db.updateProduct productId (Product.updated dto imageUrl) = .ok db' ∧
        Products.writeUpdate σ productId dto imageUrl fails = (⟨db', σ.objects⟩, none)) ∨
      ¬ UpdateAccepted σ.db product dto fails ∧
        ∃ e, Products.writeUpdate σ productId dto imageUrl fails = (σ, some e) := by
  unfold Products.writeUpdate
  cases hserved : fails.update with
  | some message =>
    refine Or.inr ⟨fun h => ?_, .raised message, rfl⟩
    rw [h.served] at hserved
    cases hserved
  | none =>
    have hok : (∃ db', σ.db.updateProduct productId (Product.updated dto imageUrl) = .ok db') ↔
        UpdateAccepted σ.db product dto fails := updateProduct_isOk hp hid hserved
    unfold unlessFailed
    dsimp only
    cases hupdate : σ.db.updateProduct productId (Product.updated dto imageUrl) with
    | ok db' => exact Or.inl ⟨hok.mp ⟨db', hupdate⟩, db', rfl, rfl⟩
    | error e =>
      refine Or.inr ⟨fun h => ?_, ?_⟩
      · obtain ⟨db', hdb'⟩ := hok.mpr h
        rw [hdb'] at hupdate
        cases hupdate
      · unfold Products.catchDuplicate
        cases e <;> exact ⟨_, rfl⟩

end Rows

/-! ## The bucket -/

section Bucket

variable {st : SupabaseStorage} {m p : ℕ} {ext : String}

theorem extractPathFromUrl_empty : st.extractPathFromUrl "" = none := by
  have hmarker : (s!"/object/public/{st.bucket}/").toList ≠ [] := by
    intro h
    have hlength := congrArg List.length h
    simp only [String.toList_append, List.length_append] at hlength
    have hslash : (toString "/object/public/").toList.length = 15 := rfl
    rw [hslash, List.length_nil] at hlength
    omega
  unfold SupabaseStorage.extractPathFromUrl
  show Option.map _ (sliceAfter _ []) = none
  unfold sliceAfter
  rw [if_neg hmarker]
  rfl

/-- The removal of an old image of a product. -/
theorem dropOld_eq (m p : ℕ) (objects : Objects) (imageUrl : String) (removeError : Option String)
    (hst : st.Inverse) (hconf : st.configured = true) (hext : ext ∈ mimeToExt.map Prod.snd) :
    st.dropOld objects (some (st.getPublicUrl (imagePath (.cuid m) (.cuid p) ext))) imageUrl
        removeError
      = if st.getPublicUrl (imagePath (.cuid m) (.cuid p) ext) ≠ imageUrl ∧ removeError = none
        then Function.update objects (imagePath (.cuid m) (.cuid p) ext) none else objects := by
  have hpath := hst m p ext hext
  have hne : st.getPublicUrl (imagePath (.cuid m) (.cuid p) ext) ≠ "" := by
    intro h
    rw [h, extractPathFromUrl_empty] at hpath
    cases hpath
  unfold SupabaseStorage.dropOld SupabaseStorage.deleteProductImage
  by_cases hsame : st.getPublicUrl (imagePath (.cuid m) (.cuid p) ext) = imageUrl
  · simp [hsame]
  · dsimp only
    rw [if_pos ⟨hne, hsame⟩, if_neg hne, hpath]
    cases removeError with
    | none => simp [imagePath_ne_empty, hconf, hsame]
    | some message => simp

/-- The extension of a file that the storage takes. -/
theorem SupabaseStorage.Takes.ext_mem {file : MulterFile} {uploadError : Option String}
    (h : st.Takes file uploadError) : file.ext ∈ mimeToExt.map Prod.snd := by
  have hmime : file.mimetype ∈ allowedMimeTypes := List.contains_iff_mem.mp h.mimetype
  have hall : ∀ mime ∈ allowedMimeTypes,
      (mimeToExt.lookup mime).getD "undefined" ∈ mimeToExt.map Prod.snd := by decide
  exact hall _ hmime

end Bucket

/-! ## What a call leaves -/

/-- The catalogue is in order, and every image reference is the URL of an object at one of the
product's own paths. -/
structure Illustrated (st : SupabaseStorage) (σ : ProductStore) : Prop where
  stocked : Stocked σ.db
  images : ∀ p ∈ σ.db.products.rows, ∀ url, p.imageUrl = some url →
    ∃ ext ∈ mimeToExt.map Prod.snd,
      url = st.getPublicUrl (imagePath p.idMerchant p.idProduct ext) ∧
        (σ.objects (imagePath p.idMerchant p.idProduct ext)).isSome

section Calls

variable {st : SupabaseStorage} {σ τ : ProductStore} {user : JwtPayload} {fails : Failures}
  {productId : Ident} {dto : UpdateProductDto} {product : Product} {file : MulterFile}

/-- The identifiers of a product are generated. -/
theorem Illustrated.generated (hσ : Illustrated st σ) {p : Product}
    (hp : p ∈ σ.db.products.rows) : ∃ m n, p.idMerchant = .cuid m ∧ p.idProduct = .cuid n := by
  obtain ⟨⟨n, -, hid⟩, hm, -⟩ :=
    hσ.stocked.products _ _ (productMerchant_eq_some.mpr ⟨p, hp, rfl, rfl⟩)
  obtain ⟨m, -, hmerchant⟩ := hσ.stocked.merchants _ hm
  exact ⟨m, n, hmerchant, hid⟩

/-- An image reference names an object of the product's own. -/
theorem Illustrated.extract (hσ : Illustrated st σ) (hst : st.Inverse) {p : Product}
    (hp : p ∈ σ.db.products.rows) {url : String} (hurl : p.imageUrl = some url) :
    ∃ ext ∈ mimeToExt.map Prod.snd,
      url = st.getPublicUrl (imagePath p.idMerchant p.idProduct ext) ∧
      st.extractPathFromUrl url = some (imagePath p.idMerchant p.idProduct ext) ∧
      (σ.objects (imagePath p.idMerchant p.idProduct ext)).isSome := by
  obtain ⟨ext, hext, rfl, hobject⟩ := hσ.images p hp url hurl
  obtain ⟨m, n, hm, hn⟩ := hσ.generated hp
  refine ⟨ext, hext, rfl, ?_, hobject⟩
  rw [hm, hn]
  exact hst m n ext hext

theorem Illustrated.present (hσ : Illustrated st σ) (hst : st.Inverse) : Present st σ := by
  intro p hp url hurl
  obtain ⟨ext, -, -, hpath, hobject⟩ := hσ.extract hst hp hurl
  exact ⟨_, hpath, hobject⟩

/-- Objects of other products. -/
theorem Illustrated.path_ne (hσ : Illustrated st σ) {p q : Product}
    (hp : p ∈ σ.db.products.rows) (hq : q ∈ σ.db.products.rows) (hne : p.idProduct ≠ q.idProduct)
    (ext ext' : String) :
    imagePath p.idMerchant p.idProduct ext ≠ imagePath q.idMerchant q.idProduct ext' := by
  obtain ⟨m, n, hm, hn⟩ := hσ.generated hp
  obtain ⟨m', n', hm', hn'⟩ := hσ.generated hq
  rw [hm, hn, hm', hn']
  intro h
  apply hne
  rw [hn, hn', imagePath_inj h]

/-- Two images of a product with one URL have one path. -/
theorem Illustrated.path_eq (hσ : Illustrated st σ) (hst : st.Inverse) {p : Product}
    (hp : p ∈ σ.db.products.rows) {ext ext' : String} (hext : ext ∈ mimeToExt.map Prod.snd)
    (hext' : ext' ∈ mimeToExt.map Prod.snd)
    (h : st.getPublicUrl (imagePath p.idMerchant p.idProduct ext)
      = st.getPublicUrl (imagePath p.idMerchant p.idProduct ext')) :
    imagePath p.idMerchant p.idProduct ext = imagePath p.idMerchant p.idProduct ext' := by
  obtain ⟨m, n, hm, hn⟩ := hσ.generated hp
  rw [hm, hn] at h ⊢
  have hpath := hst m n ext hext
  rw [h, hst m n ext' hext'] at hpath
  exact (Option.some.inj hpath).symm

/-- The bucket after the storage's part of an update. -/
def SupabaseStorage.objectsAfter (st : SupabaseStorage) (objects : Objects) (product : Product)
    (file : MulterFile) (fails : Failures) : Objects :=
  let path := imagePath product.idMerchant product.idProduct file.ext
  st.dropOld (Function.update objects path (some file.buffer)) product.imageUrl
    (st.getPublicUrl path) fails.remove

/-- An update whose file the storage takes goes on to the row. -/
theorem updateWithFile_eq (hfind : Products.findOwn σ.db user productId = some product)
    (hprice : (dto.price.all fun x => decide (0 ≤ x)) = true)
    (htakes : st.Takes file fails.upload) :
    Products.updateWithFile st σ user productId dto (some file) fails
      = Products.writeUpdate ⟨σ.db, st.objectsAfter σ.objects product file fails⟩ productId dto
          (some (st.getPublicUrl (imagePath product.idMerchant product.idProduct file.ext)))
          fails := by
  unfold Products.updateWithFile
  rw [hfind]
  dsimp only
  rw [if_pos hprice, uploadProductImage_eq_ok.mpr ⟨htakes, rfl, rfl⟩]
  rfl

/-- **The bucket after it**: the new object is stored, and the old one is removed when it has
another URL and the removal does not fail. -/
theorem objectsAfter_cases (hσ : Illustrated st σ) (hst : st.Inverse)
    (htakes : st.Takes file fails.upload) (hproduct : product ∈ σ.db.products.rows) :
    (st.objectsAfter σ.objects product file fails = Function.update σ.objects
          (imagePath product.idMerchant product.idProduct file.ext) (some file.buffer) ∧
        ∀ url, product.imageUrl = some url →
          url = st.getPublicUrl (imagePath product.idMerchant product.idProduct file.ext) ∨
            fails.remove ≠ none) ∨
      ∃ ext ∈ mimeToExt.map Prod.snd, product.imageUrl
            = some (st.getPublicUrl (imagePath product.idMerchant product.idProduct ext)) ∧
        st.getPublicUrl (imagePath product.idMerchant product.idProduct ext)
          ≠ st.getPublicUrl (imagePath product.idMerchant product.idProduct file.ext) ∧
        fails.remove = none ∧
        st.objectsAfter σ.objects product file fails = Function.update (Function.update σ.objects
            (imagePath product.idMerchant product.idProduct file.ext) (some file.buffer))
          (imagePath product.idMerchant product.idProduct ext) none := by
  unfold SupabaseStorage.objectsAfter
  cases hurl : product.imageUrl with
  | none => exact Or.inl ⟨rfl, nofun⟩
  | some url =>
    obtain ⟨ext, hext, rfl, -⟩ := hσ.images product hproduct url hurl
    obtain ⟨m, n, hm, hn⟩ := hσ.generated hproduct
    rw [hm, hn]
    have hdrop := dropOld_eq m n (Function.update σ.objects
        (imagePath (.cuid m) (.cuid n) file.ext) (some file.buffer))
      (st.getPublicUrl (imagePath (.cuid m) (.cuid n) file.ext)) fails.remove hst
      htakes.configured hext
    by_cases hgone : st.getPublicUrl (imagePath (.cuid m) (.cuid n) ext)
        ≠ st.getPublicUrl (imagePath (.cuid m) (.cuid n) file.ext) ∧ fails.remove = none
    · rw [if_pos hgone] at hdrop
      exact Or.inr ⟨ext, hext, rfl, hgone.1, hgone.2, hdrop⟩
    · rw [if_neg hgone] at hdrop
      refine Or.inl ⟨hdrop, fun url hsome => ?_⟩
      obtain rfl := Option.some.inj hsome
      exact (not_and_or.mp hgone).imp not_not.mp id

/-- The objects of other products stay. -/
theorem objectsAfter_other (hσ : Illustrated st σ) (hst : st.Inverse)
    (htakes : st.Takes file fails.upload) (hproduct : product ∈ σ.db.products.rows) {p : Product}
    (hp : p ∈ σ.db.products.rows) (hne : p.idProduct ≠ product.idProduct) (ext : String) :
    st.objectsAfter σ.objects product file fails (imagePath p.idMerchant p.idProduct ext)
      = σ.objects (imagePath p.idMerchant p.idProduct ext) := by
  have hpath := hσ.path_ne hp hproduct hne ext
  rcases objectsAfter_cases hσ hst htakes hproduct with ⟨h, -⟩ | ⟨ext', -, -, -, -, h⟩
  · rw [h, Function.update_of_ne (hpath file.ext)]
  · rw [h, Function.update_of_ne (hpath ext'), Function.update_of_ne (hpath file.ext)]

/-- The new object is there. -/
theorem objectsAfter_new (hσ : Illustrated st σ) (hst : st.Inverse)
    (htakes : st.Takes file fails.upload) (hproduct : product ∈ σ.db.products.rows) :
    st.objectsAfter σ.objects product file fails
        (imagePath product.idMerchant product.idProduct file.ext) = some file.buffer := by
  rcases objectsAfter_cases hσ hst htakes hproduct with ⟨h, -⟩ | ⟨ext', -, -, hne, -, h⟩
  · rw [h, Function.update_self]
  · rw [h, Function.update_of_ne, Function.update_self]
    intro hsame
    rw [hsame] at hne
    exact hne rfl

/-- The object that the product names has its content exactly when the file is harmless. -/
theorem objectsAfter_old (hσ : Illustrated st σ) (hst : st.Inverse)
    (htakes : st.Takes file fails.upload) (hproduct : product ∈ σ.db.products.rows) :
    (∀ url path, product.imageUrl = some url → st.extractPathFromUrl url = some path →
        st.objectsAfter σ.objects product file fails path = σ.objects path) ↔
      Harmless st σ product file fails := by
  unfold Harmless
  dsimp only
  refine forall_congr' fun url => ?_
  rw [forall_comm]
  refine forall_congr' fun hurl => ?_
  obtain ⟨ext, hext, rfl, hpath, hobject⟩ := hσ.extract hst hproduct hurl
  rw [hpath]
  simp only [Option.some.injEq, forall_eq']
  by_cases hsame : st.getPublicUrl (imagePath product.idMerchant product.idProduct ext)
      = st.getPublicUrl (imagePath product.idMerchant product.idProduct file.ext)
  · -- the new object replaces the old one
    have hpaths := hσ.path_eq hst hproduct hext htakes.ext_mem hsame
    rw [if_pos hsame, hpaths, objectsAfter_new hσ hst htakes hproduct]
    exact eq_comm
  · rw [if_neg hsame]
    rcases objectsAfter_cases hσ hst htakes hproduct with
      ⟨h, hkept⟩ | ⟨ext', hext', hurl', -, hnone, h⟩
    · have hpaths : imagePath product.idMerchant product.idProduct ext
          ≠ imagePath product.idMerchant product.idProduct file.ext := fun h => hsame (by rw [h])
      rw [h, Function.update_of_ne hpaths]
      exact ⟨fun _ => (hkept _ hurl).resolve_left hsame, fun _ => rfl⟩
    · -- the old object is removed
      have hpaths := hσ.path_eq hst hproduct hext hext'
        (Option.some.inj (hurl.symm.trans hurl'))
      rw [hpaths] at hobject
      rw [h, hnone, hpaths, Function.update_self]
      constructor
      · intro hsame
        rw [← hsame] at hobject
        cases hobject
      · exact fun hremove => absurd rfl hremove

/-- The catalogue stays in order when the named objects stay. -/
theorem Illustrated.keep (hσ : Illustrated st σ) (hst : st.Inverse) {objects : Objects}
    (h : ∀ p ∈ σ.db.products.rows, ∀ url path, p.imageUrl = some url →
      st.extractPathFromUrl url = some path → objects path = σ.objects path) :
    Illustrated st ⟨σ.db, objects⟩ where
  stocked := hσ.stocked
  images := by
    intro p hp url hurl
    obtain ⟨ext, hext, heq, hpath, hobject⟩ := hσ.extract hst hp hurl
    refine ⟨ext, hext, heq, ?_⟩
    show (objects _).isSome
    rw [h p hp url _ hurl hpath]
    exact hobject

/-- The catalogue stays in order when a row is written whose image is there. -/
theorem Illustrated.replaced (hσ : Illustrated st σ) (hproduct : product ∈ σ.db.products.rows)
    {f : Product → Product} {db' : Db} {objects : Objects}
    (h : σ.db.updateProduct product.idProduct f = .ok db')
    (hf : ∀ p, (f p).idProduct = p.idProduct ∧ (f p).idMerchant = p.idMerchant)
    (hother : ∀ p ∈ σ.db.products.rows, p.idProduct ≠ product.idProduct → ∀ ext,
      objects (imagePath p.idMerchant p.idProduct ext)
        = σ.objects (imagePath p.idMerchant p.idProduct ext))
    (hown : ∀ url, (f product).imageUrl = some url → ∃ ext ∈ mimeToExt.map Prod.snd,
      url = st.getPublicUrl (imagePath product.idMerchant product.idProduct ext) ∧
        (objects (imagePath product.idMerchant product.idProduct ext)).isSome) :
    Illustrated st ⟨db', objects⟩ where
  stocked := hσ.stocked.same (updateProduct_sameCatalogue h hf)
    (Write.updateProduct h hf).grows.seq
  images := by
    intro r hr url hurl
    rcases mem_updateProduct h hr with ⟨p, hp, hid, rfl⟩ | ⟨hr, hne⟩
    · obtain rfl : p = product := Table.eq_of_key hp hproduct
        (product_id_mem_keys.mpr rfl) (product_id_mem_keys.mpr hid.symm)
      show ∃ ext ∈ _, url = st.getPublicUrl (imagePath (f p).idMerchant (f p).idProduct ext) ∧
        (objects (imagePath (f p).idMerchant (f p).idProduct ext)).isSome
      rw [(hf p).1, (hf p).2]
      exact hown url hurl
    · obtain ⟨ext, hext, heq, hobject⟩ := hσ.images r hr url hurl
      refine ⟨ext, hext, heq, ?_⟩
      show (objects _).isSome
      rw [hother r hr hne]
      exact hobject

/-- Another row stays when a row is written. -/
theorem mem_of_updateProduct {f : Product → Product} {db db' : Db} {p : Product}
    (h : db.updateProduct productId f = .ok db') (hp : p ∈ db.products.rows)
    (hne : p.idProduct ≠ productId) : p ∈ db'.products.rows := by
  obtain ⟨-, ps, -, -, hps, rfl⟩ := updateProduct_eq_ok.mp h
  show p ∈ ps.rows
  rw [Table.rows_replace hps, List.mem_map]
  exact ⟨p, hp, if_neg fun hkey => hne (product_id_mem_keys.mp hkey)⟩

/-- **The image part of `create`**: the catalogue stays in order, and other products with their
images stay. -/
theorem Illustrated.attachFile (hσ : Illustrated st σ) (hproduct : product ∈ σ.db.products.rows)
    (hnone : product.imageUrl = none) (file : Option MulterFile) (fails : Failures) :
    Illustrated st
        (Products.attachFile st σ product.idMerchant product.idProduct file fails).1 ∧
      ∀ p ∈ σ.db.products.rows, p.idProduct ≠ product.idProduct →
        p ∈ (Products.attachFile st σ product.idMerchant product.idProduct file
          fails).1.db.products.rows ∧
        ∀ ext, (Products.attachFile st σ product.idMerchant product.idProduct file
            fails).1.objects (imagePath p.idMerchant p.idProduct ext)
          = σ.objects (imagePath p.idMerchant p.idProduct ext) := by
  unfold Products.attachFile
  cases file with
  | none => exact ⟨hσ, fun p hp _ => ⟨hp, fun _ => rfl⟩⟩
  | some file =>
    dsimp only
    rcases uploadProductImage_cases st σ.objects product.idMerchant product.idProduct file
      fails.upload with ⟨⟨e, he⟩, -⟩ | ⟨hstored, htakes⟩
    · rw [he]
      exact ⟨hσ, fun p hp _ => ⟨hp, fun _ => rfl⟩⟩
    · rw [hstored]
      dsimp only
      have hother : ∀ p ∈ σ.db.products.rows, p.idProduct ≠ product.idProduct → ∀ ext,
          Function.update σ.objects (imagePath product.idMerchant product.idProduct file.ext)
              (some file.buffer) (imagePath p.idMerchant p.idProduct ext)
            = σ.objects (imagePath p.idMerchant p.idProduct ext) := fun p hp hne ext =>
        Function.update_of_ne (hσ.path_ne hp hproduct hne ext file.ext) _ _
      cases hupdate : unlessFailed fails.update (σ.db.updateProduct product.idProduct fun q =>
          { q with imageUrl := some (st.getPublicUrl
            (imagePath product.idMerchant product.idProduct file.ext)) }) with
      | error e =>
        refine ⟨⟨hσ.stocked, fun p hp url hurl => ?_⟩, fun p hp hne => ⟨hp, hother p hp hne⟩⟩
        have hne : p.idProduct ≠ product.idProduct := by
          intro hid
          rw [Table.eq_of_key hp hproduct (product_id_mem_keys.mpr hid)
            (product_id_mem_keys.mpr rfl), hnone] at hurl
          cases hurl
        obtain ⟨ext, hext, heq, hobject⟩ := hσ.images p hp url hurl
        exact ⟨ext, hext, heq, (congrArg Option.isSome (hother p hp hne ext)).trans hobject⟩
      | ok db' =>
        have hwritten : σ.db.updateProduct product.idProduct (fun q =>
            { q with imageUrl := some (st.getPublicUrl
              (imagePath product.idMerchant product.idProduct file.ext)) }) = .ok db' := by
          unfold unlessFailed at hupdate
          split at hupdate
          · exact hupdate
          · cases hupdate
        refine ⟨hσ.replaced hproduct hwritten (fun _ => ⟨rfl, rfl⟩) hother ?_,
          fun p hp hne => ⟨mem_of_updateProduct hwritten hp hne, hother p hp hne⟩⟩
        rintro url ⟨rfl⟩
        refine ⟨file.ext, htakes.ext_mem, rfl, ?_⟩
        rw [Function.update_self]
        rfl

/-- **`create`** keeps the catalogue in order and the products with their images. -/
theorem Illustrated.create (hσ : Illustrated st σ) (hst : st.Inverse) (user : JwtPayload)
    (dto : CreateProductDto) (file : Option MulterFile) (now : DateTime) (fails : Failures) :
    Illustrated st (Products.createWithFile st σ user dto file now fails).1 ∧
      Untouched st σ (Products.createWithFile st σ user dto file now fails).1 := by
  by_cases hwritten : fails.transaction = none ∧ RowsAccepted σ.db user dto now
  · obtain ⟨htransaction, haccepted⟩ := hwritten
    obtain ⟨db', hrows⟩ := (createRows_isOk hσ.stocked).mpr haccepted
    rw [createWithFile_eq file htransaction hrows]
    have hstocked := hσ.stocked.createRows hrows
    obtain ⟨-, -, -, ps, is, hps, -, -, rfl⟩ := createProductWithInventory_eq_ok.mp hrows
    -- the new row has no image yet
    have hnew := (Table.mem_insert hps).mpr (Or.inr rfl)
    have hσ₁ : Illustrated st
        ⟨{ σ.db with products := ps, inventories := is, seq := σ.db.seq + 2 }, σ.objects⟩ := by
      refine ⟨hstocked, fun p hp url hurl => ?_⟩
      rcases (Table.mem_insert hps).mp hp with hp | rfl
      · exact hσ.images p hp url hurl
      · cases hurl
    obtain ⟨hτ, hothers⟩ := hσ₁.attachFile hnew rfl file fails
    refine ⟨hτ, fun p hp url path hurl hpath => ?_⟩
    have hne : p.idProduct ≠ σ.db.newId := by
      intro hid
      have hfree := Table.has_eq_false.mp hσ.stocked.has_newId.1 p hp
      exact hfree (product_id_mem_keys.mpr hid)
    obtain ⟨hmem, hobjects⟩ := hothers p ((Table.mem_insert hps).mpr (Or.inl hp)) hne
    obtain ⟨ext, -, -, hextract, -⟩ := hσ.extract hst hp hurl
    obtain rfl := Option.some.inj (hextract.symm.trans hpath)
    exact ⟨hmem, hobjects ext⟩
  · rw [createWithFile_refused hσ.stocked file hwritten]
    exact ⟨hσ, fun p hp _ _ _ _ => ⟨hp, rfl⟩⟩

/-- **`update`** with a file that the storage takes: the row is written, and the catalogue stays
in order; or the call throws, and the images stay exactly when the file is harmless. -/
theorem Illustrated.update (hσ : Illustrated st σ) (hst : st.Inverse)
    (hfind : Products.findOwn σ.db user productId = some product)
    (hprice : (dto.price.all fun x => decide (0 ≤ x)) = true)
    (htakes : st.Takes file fails.upload) :
    (UpdateAccepted σ.db product dto fails ∧
        (Products.updateWithFile st σ user productId dto (some file) fails).2 = none ∧
        Illustrated st (Products.updateWithFile st σ user productId dto (some file) fails).1) ∨
      ¬ UpdateAccepted σ.db product dto fails ∧
        (Products.updateWithFile st σ user productId dto (some file) fails).2 ≠ none ∧
        (Products.updateWithFile st σ user productId dto (some file) fails).1
          = ⟨σ.db, st.objectsAfter σ.objects product file fails⟩ ∧
        (Untouched st σ ⟨σ.db, st.objectsAfter σ.objects product file fails⟩ ↔
          Harmless st σ product file fails) := by
  obtain ⟨hproduct, hid, -⟩ := findOwn_eq_some hfind
  have hothers := fun p hp hne => objectsAfter_other hσ hst htakes hproduct (p := p) hp hne
  rw [updateWithFile_eq hfind hprice htakes]
  rcases writeUpdate_cases (σ := ⟨σ.db, st.objectsAfter σ.objects product file fails⟩) dto
    (some (st.getPublicUrl (imagePath product.idMerchant product.idProduct file.ext))) fails
    hproduct hid with
    ⟨haccepted, db', hwritten, hresult⟩ | ⟨hrefused, e, hresult⟩
  · rw [hresult]
    refine Or.inl ⟨haccepted, rfl, ?_⟩
    rw [← hid] at hwritten
    refine hσ.replaced hproduct hwritten (fun _ => ⟨rfl, rfl⟩) hothers ?_
    rintro url ⟨rfl⟩
    have hnew := congrArg Option.isSome (objectsAfter_new hσ hst htakes hproduct)
    exact ⟨file.ext, htakes.ext_mem, rfl, hnew⟩
  · rw [hresult]
    refine Or.inr ⟨hrefused, nofun, rfl, ?_⟩
    rw [← objectsAfter_old hσ hst htakes hproduct]
    constructor
    · exact fun h url path hurl hpath => (h product hproduct url path hurl hpath).2
    · intro h p hp url path hurl hpath
      refine ⟨hp, ?_⟩
      by_cases hne : p.idProduct = product.idProduct
      · obtain rfl := Table.eq_of_key hp hproduct (product_id_mem_keys.mpr hne)
          (product_id_mem_keys.mpr rfl)
        exact h url path hurl hpath
      · obtain ⟨ext, -, -, hextract, -⟩ := hσ.extract hst hp hurl
        obtain rfl := Option.some.inj (hextract.symm.trans hpath)
        exact hothers p hp hne ext

/-- **`update`** in every other case keeps the bucket, and the catalogue stays in order. -/
theorem Illustrated.update_other (hσ : Illustrated st σ)
    (file : Option MulterFile)
    (h : ∀ product f, Products.findOwn σ.db user productId = some product →
      (dto.price.all fun x => decide (0 ≤ x)) = true → file = some f →
        ¬ st.Takes f fails.upload) :
    Illustrated st (Products.updateWithFile st σ user productId dto file fails).1 ∧
      ((Products.updateWithFile st σ user productId dto file fails).2 ≠ none →
        (Products.updateWithFile st σ user productId dto file fails).1 = σ) := by
  unfold Products.updateWithFile
  cases hfind : Products.findOwn σ.db user productId with
  | none => exact ⟨hσ, fun _ => rfl⟩
  | some product =>
    dsimp only
    obtain ⟨hproduct, hid, -⟩ := findOwn_eq_some hfind
    by_cases hprice : (dto.price.all fun x => decide (0 ≤ x)) = true
    · rw [if_pos hprice]
      cases file with
      | some f =>
        dsimp only
        rcases uploadProductImage_cases st σ.objects product.idMerchant product.idProduct f
          fails.upload with ⟨⟨e, he⟩, -⟩ | ⟨-, htakes⟩
        · rw [he]
          exact ⟨hσ, fun _ => rfl⟩
        · exact absurd htakes (h product f hfind hprice rfl)
      | none =>
        dsimp only
        rcases writeUpdate_cases dto none fails hproduct hid with
          ⟨-, db', hwritten, hresult⟩ | ⟨-, e, hresult⟩
        · rw [hresult]
          rw [← hid] at hwritten
          refine ⟨hσ.replaced hproduct hwritten (fun _ => ⟨rfl, rfl⟩) (fun _ _ _ _ => rfl) ?_,
            fun h => absurd rfl h⟩
          exact hσ.images product hproduct
        · rw [hresult]
          exact ⟨hσ, fun _ => rfl⟩
    · rw [if_neg hprice]
      exact ⟨hσ, fun _ => rfl⟩

/-- **What a call does under the condition**: the catalogue stays in order, and a call that
throws leaves the images. -/
theorem Illustrated.run (hσ : Illustrated st σ) (hst : st.Inverse) {c : ImageCall}
    (hc : Spares st σ c) :
    Illustrated st (c.run st σ).1 ∧ ((c.run st σ).2 ≠ none → Untouched st σ (c.run st σ).1) := by
  cases c with
  | create user dto file now fails =>
    obtain ⟨hτ, hkept⟩ := hσ.create hst user dto file now fails
    exact ⟨hτ, fun _ => hkept⟩
  | update user productId dto file fails =>
    show Illustrated st (Products.updateWithFile st σ user productId dto file fails).1 ∧
      ((Products.updateWithFile st σ user productId dto file fails).2 ≠ none →
        Untouched st σ (Products.updateWithFile st σ user productId dto file fails).1)
    by_cases hstores : ∃ product f, Products.findOwn σ.db user productId = some product ∧
        (dto.price.all fun x => decide (0 ≤ x)) = true ∧ file = some f ∧ st.Takes f fails.upload
    · obtain ⟨product, f, hfind, hprice, rfl, htakes⟩ := hstores
      rcases hσ.update hst hfind hprice htakes with
        ⟨-, hdone, hτ⟩ | ⟨hrefused, -, hresult, hharmless⟩
      · exact ⟨hτ, fun h => absurd hdone h⟩
      · have huntouched := hharmless.mpr
          ((hc product f hfind hprice rfl htakes).resolve_left hrefused)
        rw [hresult]
        refine ⟨hσ.keep hst fun p hp url path hurl hpath => ?_, fun _ => huntouched⟩
        exact (huntouched p hp url path hurl hpath).2
    · obtain ⟨hτ, hsame⟩ := hσ.update_other file (fun product f hfind hprice hfile htakes =>
        hstores ⟨product, f, hfind, hprice, hfile, htakes⟩)
      refine ⟨hτ, fun hthrows => ?_⟩
      rw [hsame hthrows]
      exact fun p hp _ _ _ _ => ⟨hp, rfl⟩

/-- **On one call, the condition is exact.** -/
theorem spares_iff (hσ : Illustrated st σ) (hst : st.Inverse) (c : ImageCall) :
    (Present st (c.run st σ).1 ∧ ((c.run st σ).2 ≠ none → Untouched st σ (c.run st σ).1)) ↔
      Spares st σ c := by
  constructor
  · rintro ⟨-, hthrows⟩
    cases c with
    | create => trivial
    | update user productId dto file fails =>
      rintro product f hfind hprice rfl htakes
      rcases hσ.update hst hfind hprice htakes with ⟨haccepted, -⟩ | ⟨-, hthrew, hresult, hharmless⟩
      · exact Or.inl haccepted
      · have huntouched := hthrows hthrew
        have hrun : (ImageCall.update user productId dto (some f) fails).run st σ
          = Products.updateWithFile st σ user productId dto (some f) fails := rfl
        rw [hrun, hresult] at huntouched
        exact Or.inr (hharmless.mp huntouched)
  · intro hc
    obtain ⟨hτ, hthrows⟩ := hσ.run hst hc
    exact ⟨hτ.present hst, hthrows⟩

end Calls

/-! ## Runs -/

/-- **Image references do not dangle**, and a call that throws leaves the images, in every run
in which each row update after a file that is not harmless goes through. -/
theorem images_present {us : Table User} {st : SupabaseStorage} {σ₀ σ : ProductStore}
    {cs : List ImageCall} (hst : st.Inverse) (hreach : Reachable us σ₀.db)
    (hnone : ∀ p ∈ σ₀.db.products.rows, p.imageUrl = none)
    (hrun : Run (imageNext st) (Spares st) σ₀ cs σ) :
    Present st σ ∧ ∀ c, Spares st σ c → (c.run st σ).2 ≠ none → Untouched st σ (c.run st σ).1 := by
  have hstart : Illustrated st σ₀ := by
    refine ⟨hreach.stocked, fun p hp url hurl => ?_⟩
    rw [hnone p hp] at hurl
    cases hurl
  have hσ : Illustrated st σ :=
    hrun.invariant_total (Illustrated st) hstart fun τ c hτ hc => (hτ.run hst hc).1
  exact ⟨hσ.present hst, fun c hc => (hσ.run hst hc).2⟩

/-! ## Images in the shop -/

/-- The URLs of the shop's storage lead back to the paths. -/
theorem shopStorage_inverse : shopStorage.Inverse := by
  intro m p ext _
  generalize imagePath (.cuid m) (.cuid p) ext = path
  have hslice : sliceAfter ("/object/public/products/").toList
      ("https://shop.supabase.co/storage/v1/object/public/products/" ++ path).toList
      = some path.toList := by
    rw [String.toList_append]
    rfl
  have hmap := congrArg (Option.map String.ofList) hslice
  rw [Option.map_some, String.ofList_toList] at hmap
  exact hmap

/-- The tea gets a picture; then it gets another one of another type, with the SKU of the
coffee. -/
def newPictures : List ImageCall :=
  [.create shopOwner coffee none 1 Failures.none,
   .update shopOwner shopProduct ⟨none, none, none, none⟩ (some (shopFile "image/png" [1, 2]))
    Failures.none,
   .update shopOwner shopProduct ⟨none, some "COFFEE", none, none⟩
    (some (shopFile "image/jpeg" [3])) Failures.none]

/-- A test that an image reference names nothing. -/
def dangles (st : SupabaseStorage) (σ : ProductStore) : Bool :=
  σ.db.products.rows.any fun p => p.imageUrl.any fun url =>
    (st.extractPathFromUrl url).all fun path => (σ.objects path).isNone

theorem dangles_eq_false {st : SupabaseStorage} {σ : ProductStore} (h : Present st σ) :
    dangles st σ = false := by
  unfold dangles
  rw [List.any_eq_false]
  intro p hp
  cases hurl : p.imageUrl with
  | none => simp
  | some url =>
    obtain ⟨path, hpath, hobject⟩ := h p hp url hurl
    simp [hpath, ← Option.isSome_iff_ne_none, hobject]

/-- **An image reference dangles**: the row update is refused after the old picture is gone. -/
theorem image_dangles : ¬ ∀ (us : Table User) (st : SupabaseStorage) (σ₀ σ : ProductStore)
    (cs : List ImageCall), st.Inverse → Reachable us σ₀.db →
      (∀ p ∈ σ₀.db.products.rows, p.imageUrl = none) →
      Run (imageNext st) anyStep σ₀ cs σ →
        Present st σ ∧
          ∀ c : ImageCall, (c.run st σ).2 ≠ none → Untouched st σ (c.run st σ).1 := by
  intro h
  have hruns : (runs (imageNext shopStorage) (fun _ _ => true) ⟨shop, fun _ => none⟩
      newPictures).any (dangles shopStorage) = true := by decide +kernel
  obtain ⟨σ, hrun, hdangles⟩ := exists_run_of_runs hruns
  have hpresent := (h systemUsers shopStorage ⟨shop, fun _ => none⟩ σ newPictures
    shopStorage_inverse (reachable_shopWith systemUsers) (by decide +kernel)
    (hrun.weaken fun _ _ _ => trivial)).1
  rw [dangles_eq_false hpresent] at hdangles
  cases hdangles

/-- The first two of these calls meet the condition, and then the tea has its picture. -/
theorem images_present_tea : ∃ σ, Run (imageNext shopStorage) (Spares shopStorage)
      ⟨shop, fun _ => none⟩ (newPictures.take 2) σ ∧
    (σ.db.products.rows.any fun p => p.imageUrl.isSome) = true ∧
    Present shopStorage σ ∧ ∀ c : ImageCall, Spares shopStorage σ c →
      (c.run shopStorage σ).2 ≠ none → Untouched shopStorage σ (c.run shopStorage σ).1 := by
  have hcreate : Run (imageNext shopStorage) (Spares shopStorage) ⟨shop, fun _ => none⟩
      (newPictures.take 1) _ := .step .start trivial rfl
  have hspares : Spares shopStorage ((ImageCall.create shopOwner coffee none 1
      Failures.none).run shopStorage ⟨shop, fun _ => none⟩).1
      (.update shopOwner shopProduct ⟨none, none, none, none⟩
        (some (shopFile "image/png" [1, 2])) Failures.none) := by
    intro product f hfind _ _ _
    -- no product has an image yet
    have hnone : ∀ p ∈ ((ImageCall.create shopOwner coffee none 1 Failures.none).run shopStorage
        ⟨shop, fun _ => none⟩).1.db.products.rows, p.imageUrl = none := by decide +kernel
    refine Or.inr fun url hurl => ?_
    rw [hnone product (findOwn_eq_some hfind).1] at hurl
    cases hurl
  have hrun := hcreate.step hspares rfl
  refine ⟨_, hrun, by decide +kernel, ?_⟩
  exact images_present shopStorage_inverse (reachable_shopWith systemUsers)
    (by decide +kernel) hrun

end KPos
