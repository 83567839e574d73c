/-
# Whether the stock of merchants is kept apart

A call for a merchant should move the stock of that merchant's products alone.  The
services look products up by id, without their merchant, so this rests on what the payloads
name.

* `namesOwnProducts` : the condition on a call, that the products it names are not another
  merchant's;
* `tenant_isolated` : under the condition every call of a run keeps to its merchant;
* `tenant_not_isolated` : without it, a sale takes another merchant's stock.
-/
import KPos.References

namespace KPos

/-! ## Calls and their merchants -/

/-- The merchant for whom a call is carried out, if it is about stock. -/
def merchantOf (db : Db) : Op → Option Ident
  | .sync data _ => db.deviceMerchant data.idDevice
  | .adjustStock user _ _ _ | .resolveConflict user _ _ _ | .correctTransaction user _ _ _ =>
      some user.idMerchant
  | _ => none

/-- None of the products belongs to another merchant. -/
def Db.ownOrUnknown (db : Db) (m : Ident) (products : List Ident) : Bool :=
  products.all fun p => (db.productMerchant p).all fun owner => decide (owner = m)

/-- The call names no product of another merchant. -/
def namesOwnProducts (db : Db) : Op → Bool
  | .sync data _ =>
      (db.deviceMerchant data.idDevice).all fun m =>
        db.ownOrUnknown m (data.items.map (·.idProduct))
  | .correctTransaction user _ dto _ =>
      db.ownOrUnknown user.idMerchant (dto.items.map (·.idProduct))
  | _ => true

/-- What was done for the merchant `m` left the others' stock alone, and every row that it
wrote is about a product of `m`. -/
structure Isolated (m : Ident) (db db' : Db) : Prop where
  stock : ∀ p ∈ db.products.rows, p.idMerchant ≠ m → db'.stock p.idProduct = db.stock p.idProduct
  details : ∃ ds, db'.details = db.details ++ ds ∧
    ∀ d ∈ ds, db'.productMerchant d.idProduct = some m
  histories : ∃ hs, db'.stockHistories = db.stockHistories ++ hs ∧
    ∀ h ∈ hs, db'.productMerchant h.idProduct = some m

/-- The lines of each transaction are about products of its merchant. -/
def DetailsOwned (db : Db) : Prop :=
  ∀ d ∈ db.details, ∃ m, db.transactionMerchant d.idTransaction = some m ∧
    db.productMerchant d.idProduct = some m

section Steps

variable {db db' : Db} {m : Ident}

/-- A product that exists and is not another merchant's is one's own. -/
theorem own_of_has {products : List Ident} (h : db.ownOrUnknown m products = true) {p : Ident}
    (hp : p ∈ products) (hhas : db.products.has (.id p) = true) :
    db.productMerchant p = some m := by
  unfold Table.has at hhas
  obtain ⟨q, hq⟩ := Option.isSome_iff_exists.mp hhas
  have howner : db.productMerchant p = some q.idMerchant := by
    unfold Db.productMerchant
    rw [hq]
    rfl
  have := List.all_eq_true.mp h p hp
  rw [howner] at this ⊢
  simpa using this

/-- What enters rows about products of `m` only is isolated. -/
theorem Entered.isolated {ds : List DetailTransaction} {hs : List StockHistory}
    (h : Entered db db' ds hs) (hg : Grows db db')
    (hds : ∀ d ∈ ds, db.productMerchant d.idProduct = some m)
    (hhs : ∀ r ∈ hs, db.productMerchant r.idProduct = some m) : Isolated m db db' where
  stock := by
    intro p hp hne
    have howner : db.productMerchant p.idProduct = some p.idMerchant :=
      productMerchant_eq_some.mpr ⟨p, hp, rfl, rfl⟩
    have hnone : movement p.idProduct hs = 0 := by
      apply Tally.tally_eq_zero
      intro r hr
      rw [decide_eq_false_iff_not]
      intro heq
      have := hhs r hr
      rw [heq, howner] at this
      exact hne (Option.some.inj this)
    rw [h.stock, hnone, add_zero]
  details := ⟨ds, h.details, fun d hd => hg.products _ _ (hds d hd)⟩
  histories := ⟨hs, h.histories, fun r hr => hg.products _ _ (hhs r hr)⟩

/-- New lines about products of their transaction's merchant keep the lines owned. -/
theorem Entered.detailsOwned {ds : List DetailTransaction} {hs : List StockHistory}
    (h : Entered db db' ds hs) (hg : Grows db db') (hdb : DetailsOwned db)
    (hds : ∀ d ∈ ds, ∃ m, db'.transactionMerchant d.idTransaction = some m ∧
      db'.productMerchant d.idProduct = some m) : DetailsOwned db' := by
  intro d hd
  rw [h.details] at hd
  rcases List.mem_append.mp hd with hd | hd
  · obtain ⟨m, ht, hp⟩ := hdb d hd
    exact ⟨m, hg.sellers _ _ ht, hg.products _ _ hp⟩
  · exact hds d hd

/-- What enters one transaction of `m`, with lines and movements of products of `m`. -/
theorem Entered.ofSeller {ds : List DetailTransaction} {hs : List StockHistory}
    (h : Entered db db' ds hs) (hg : Grows db db') (hdb : DetailsOwned db) {t : Ident}
    (hseller : db'.transactionMerchant t = some m)
    (hds : ∀ d ∈ ds, d.idTransaction = t ∧ db.productMerchant d.idProduct = some m)
    (hhs : ∀ r ∈ hs, db.productMerchant r.idProduct = some m) :
    DetailsOwned db' ∧ Isolated m db db' := by
  constructor
  · refine h.detailsOwned hg hdb fun d hd => ⟨m, ?_, hg.products _ _ (hds d hd).2⟩
    rw [(hds d hd).1]
    exact hseller
  · exact h.isolated hg (fun d hd => (hds d hd).2) hhs

/-- The merchant of a transaction that was just inserted. -/
theorem merchant_insert {r : Transaction} {ts : Table Transaction}
    (h : db.transactions.insert r = some ts) :
    (ts.findUnique (.id r.idTransaction)).map (·.idMerchant) = some r.idMerchant := by
  rw [Table.findUnique_eq_some.mpr ⟨(Table.mem_insert h).mpr (Or.inr rfl), id_mem_keys.mpr rfl⟩]
  rfl

/-- The lines of a transaction that was found are about products of its merchant. -/
theorem DetailsOwned.found (hdb : DetailsOwned db) {t : FoundTransaction} (ht : t.CurrentIn db)
    {d : DetailTransaction} (hd : d ∈ t.details) :
    db.productMerchant d.idProduct = some t.row.idMerchant := by
  rw [ht.details] at hd
  obtain ⟨hmem, hid⟩ := List.mem_filter.mp hd
  obtain ⟨m, hseller, hp⟩ := hdb d hmem
  have hrow : db.transactionMerchant t.row.idTransaction = some t.row.idMerchant :=
    transactionMerchant_eq_some.mpr ⟨t.row, ht.row, rfl, rfl⟩
  rw [of_decide_eq_true hid, hrow] at hseller
  rw [hp, Option.some.inj hseller]

/-- The products of a sale that was stored under the condition are the device's
merchant's. -/
theorem StoredSale.own {data : QueuedTransaction} {hasConflict : Bool} {now created : DateTime}
    {d : Device} (h : StoredSale db db' data hasConflict now d created)
    (hown : ∀ m, db.deviceMerchant data.idDevice = some m →
      db.ownOrUnknown m (data.items.map (·.idProduct)) = true) :
    db.deviceMerchant data.idDevice = some d.idMerchant ∧
      ∀ item ∈ data.items, db.productMerchant item.idProduct = some d.idMerchant := by
  have hdevice : db.deviceMerchant data.idDevice = some d.idMerchant := by
    unfold Db.deviceMerchant
    rw [h.insertable.device]
    rfl
  refine ⟨hdevice, fun item hitem => ?_⟩
  exact own_of_has (hown _ hdevice) (List.mem_map_of_mem hitem) (h.insertable.products item hitem)

/-- A sale that was stored under the condition keeps to the merchant of its device. -/
theorem StoredSale.isolated {data : QueuedTransaction} {outcome : ItemOutcome} {db₁ : Db}
    {d : Device} {created : DateTime}
    (sale : StoredSale db db₁ data (checkStockAvailability db data.items) outcome.now d created)
    (rest : SameSales db₁ db') (hg : Grows db db') (hdb : DetailsOwned db)
    (hop : namesOwnProducts db (.sync data outcome) = true) :
    DetailsOwned db' ∧ ∀ m, db.deviceMerchant data.idDevice = some m → Isolated m db db' := by
  -- the condition speaks of the merchant of the item's device
  have hcond : ∀ m, db.deviceMerchant data.idDevice = some m →
      db.ownOrUnknown m (data.items.map (·.idProduct)) = true := by
    intro m hm
    simpa [namesOwnProducts, hm] using hop
  obtain ⟨hdevice, hitems⟩ := sale.own hcond
  have hentered : Entered db db' (saleDetails data db.newId outcome.now)
      (if checkStockAvailability db data.items then []
        else saleHistories data db.newId d.idMerchant outcome.now) :=
    ⟨rest.details.trans sale.entered.details, rest.histories.trans sale.entered.histories,
      fun p => (rest.stock p).trans (sale.entered.stock p)⟩
  have hseller : db'.transactionMerchant db.newId = some d.idMerchant := by
    unfold Db.transactionMerchant
    rw [rest.transactions]
    exact merchant_insert sale.insertable.header
  have hlines : ∀ l ∈ saleDetails data db.newId outcome.now, l.idTransaction = db.newId ∧
      db.productMerchant l.idProduct = some d.idMerchant := by
    intro l hl
    unfold saleDetails at hl
    rw [List.map_map] at hl
    obtain ⟨item, hitem, rfl⟩ := List.mem_map.mp hl
    exact ⟨rfl, hitems item hitem⟩
  obtain ⟨howned, hisolated⟩ := hentered.ofSeller hg hdb hseller hlines fun r hr => by
    split at hr
    · cases hr
    · obtain ⟨item, hitem, hp⟩ := mem_histories hr
      rw [hp]
      exact hitems item hitem
  refine ⟨howned, fun m hm => ?_⟩
  obtain rfl : d.idMerchant = m := Option.some.inj (hdevice.symm.trans hm)
  exact hisolated

/-- A correction under the condition keeps to the merchant of the user who made it. -/
theorem Corrected.isolated {user : JwtPayload} {id : Ident} {t : FoundTransaction}
    {dto : CorrectTransactionDto} {now : DateTime}
    (read : Transactions.correctTransactionRead db user id = .ok t)
    (written : Corrected db db' user t dto now) (hg : Grows db db') (hdb : DetailsOwned db)
    (hop : namesOwnProducts db (.correctTransaction user id dto now) = true) :
    DetailsOwned db' ∧ Isolated user.idMerchant db db' := by
  obtain ⟨hcur, hm, -⟩ := correctTransactionRead_eq_ok read
  obtain ⟨ts, hins, hts⟩ := written.transactions
  have hitems : ∀ item ∈ dto.items, db.productMerchant item.idProduct = some user.idMerchant :=
    fun item hitem => own_of_has hop (List.mem_map_of_mem hitem) (written.products item hitem)
  have hseller : db'.transactionMerchant db.newId = some user.idMerchant := by
    unfold Db.transactionMerchant
    rw [hts, ← hm]
    exact Table.map_findUnique_update (fun _ => rfl) (merchant_insert hins)
  have hlines : ∀ l ∈ correctionDetails dto db.newId now, l.idTransaction = db.newId ∧
      db.productMerchant l.idProduct = some user.idMerchant := by
    intro l hl
    unfold correctionDetails at hl
    rw [List.map_map] at hl
    obtain ⟨item, hitem, rfl⟩ := List.mem_map.mp hl
    exact ⟨rfl, hitems item hitem⟩
  refine written.entered.ofSeller hg hdb hseller hlines fun r hr => ?_
  -- the movements give back the old lines and take out the new ones
  rcases List.mem_append.mp hr with hr | hr
  · obtain ⟨l, hl, hp⟩ := mem_histories hr
    rw [hp, ← hm]
    exact hdb.found hcur hl
  · obtain ⟨item, hitem, hp⟩ := mem_histories hr
    rw [hp]
    exact hitems item hitem

/-- **A call under the condition keeps to its merchant**, and keeps the lines owned. -/
theorem exec_isolated (hdb : DetailsOwned db) {op : Op} (hop : namesOwnProducts db op = true) :
    DetailsOwned (exec db op) ∧
      ∀ m, merchantOf db op = some m → Isolated m db (exec db op) := by
  have heffect := exec_effect db op
  have hg := exec_grows db op
  generalize exec db op = db' at heffect hg
  cases heffect with
  | alone same _ _ =>
    refine ⟨same.entered.detailsOwned hg hdb fun _ h => (nomatch h), fun m _ => ?_⟩
    exact same.entered.isolated hg (fun _ h => nomatch h) fun _ h => nomatch h
  | @adjusted user productId dto now _ product own moved entered =>
    refine ⟨moved.entered.detailsOwned hg hdb fun _ h => (nomatch h), ?_⟩
    rintro m hm
    obtain rfl := Option.some.inj hm
    refine moved.entered.isolated hg (fun _ h => nomatch h) fun r hr => ?_
    rw [List.mem_singleton.mp hr]
    have hfound := List.find?_some own
    simp only [decide_eq_true_eq] at hfound
    exact productMerchant_eq_some.mpr ⟨product, List.mem_of_find?_eq_some own, rfl, hfound.2⟩
  | @synced data outcome db₁ _ d created sale rest =>
    exact sale.isolated rest hg hdb hop
  | @voided user id reason now t read =>
    have hentered := entered_relabel db t.row.idTransaction (Transaction.voided user reason now)
    exact ⟨hentered.detailsOwned hg hdb fun _ h => (nomatch h), fun m hm => nomatch hm⟩
  | @confirmed user id dto now _ t read forced =>
    obtain ⟨hcur, hm, -⟩ := resolveConflictRead_eq_ok read
    refine ⟨forced.entered.detailsOwned hg hdb fun _ h => (nomatch h), ?_⟩
    rintro m hmer
    obtain rfl := Option.some.inj hmer
    refine forced.entered.isolated hg (fun _ h => nomatch h) fun r hr => ?_
    obtain ⟨l, hl, hp⟩ := mem_histories hr
    rw [hp, ← hm]
    exact hdb.found hcur hl
  | @conflictVoided user id dto now t read =>
    have hentered := entered_relabel db t.row.idTransaction
      (Transaction.conflictVoided user dto.notes now)
    refine ⟨hentered.detailsOwned hg hdb fun _ h => (nomatch h), fun m _ => ?_⟩
    exact hentered.isolated hg (fun _ h => nomatch h) fun _ h => nomatch h
  | @corrected user id dto now _ t read written =>
    obtain ⟨howned, hisolated⟩ := written.isolated read hg hdb hop
    refine ⟨howned, fun m hmer => ?_⟩
    obtain rfl := Option.some.inj hmer
    exact hisolated
  | @invalidated id user dto now db₁ r found live rest entered =>
    have hentered : Entered db (db₁.relabel r.transaction.idTransaction
        (Transaction.voided user (invalidReason id) now)) [] [] :=
      ⟨rest.entered.details, rest.entered.histories, rest.entered.stock⟩
    exact ⟨hentered.detailsOwned hg hdb fun _ h => (nomatch h), fun m hm => nomatch hm⟩

end Steps

/-- **Merchants are isolated** in every run whose calls meet the condition. -/
theorem tenant_isolated {us : Table User} {ops : List Op} {db : Db} {op : Op} {m : Ident}
    (h : Runs.Run next (fun db op => namesOwnProducts db op = true) (Db.withUsers us) ops db)
    (hop : namesOwnProducts db op = true) (hm : merchantOf db op = some m) :
    Isolated m db (exec db op) := by
  have howned : DetailsOwned db := h.invariant_total DetailsOwned (fun _ h => nomatch h)
    fun db₁ op hdb hop => (exec_isolated hdb hop).1
  exact (exec_isolated howned hop).2 m hm

/-- A sale at the shop's till is isolated. -/
theorem tenant_isolated_shopSync :
    Isolated shopMerchant twoShops (exec twoShops (shopSync "a" [3])) := by
  have hrun : Runs.Run next (fun db op => namesOwnProducts db op = true)
      (Db.withUsers systemUsers) (shopOpening ++ otherOpening) twoShops :=
    .cons rfl rfl (.cons rfl rfl (.cons rfl rfl (.cons rfl rfl (.cons rfl rfl
      (.cons rfl rfl (.cons rfl rfl .start))))))
  have hop : namesOwnProducts twoShops (shopSync "a" [3]) = true := by decide +kernel
  have hm : merchantOf twoShops (shopSync "a" [3]) = some shopMerchant := by decide +kernel
  exact tenant_isolated hrun hop hm

/-- **Merchants are not isolated**: a sale at the second merchant's till takes the stock of
the first one's product. -/
theorem tenant_not_isolated : ¬ ∀ (us : Table User) (db : Db) (op : Op) (m : Ident),
    Reachable us db → merchantOf db op = some m → Isolated m db (exec db op) := by
  intro h
  have hreach : Reachable systemUsers twoShops := reachable_twoShops
  let sale : Op := .sync (shopQueued otherDevice "a" [3]) (.served 1)
  have hm : merchantOf twoShops sale = some otherOwner.idMerchant := by decide +kernel
  have hstock := (h systemUsers twoShops sale _ hreach hm).stock
  have htaken : ¬ ∀ p ∈ twoShops.products.rows, p.idMerchant ≠ otherOwner.idMerchant →
      (exec twoShops sale).stock p.idProduct = twoShops.stock p.idProduct := by decide +kernel
  exact htaken hstock

end KPos
