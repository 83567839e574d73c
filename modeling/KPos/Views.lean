/-
# What the users of a merchant get to see

The services read with whatever `where` each of them has.  That nobody gets to see rows of
another merchant is a property of all of them together: what a query answers to a user is what
it would answer if the database held the rows of the user's merchant and no others.

* `Db.ofMerchant` : the rows of a merchant;
* `Query.Scoped` : the queries that keep to the merchant: all but the status of a synchronisation,
  another merchant's payment, and pages from a row that is not listed;
* `answers_own` : what the queries answer, in every state of a server.
-/
import KPos.Reads
import KPos.Separation

namespace KPos

/-! ## The rows of a merchant -/

/-- The rows of a merchant: those that name it, and those that refer to such rows. -/
def Db.ofMerchant (db : Db) (m : Ident) : Db where
  merchants := db.merchants.only fun r => decide (r.idMerchant = m)
  users := db.users.only fun u => decide (u.idMerchant = some m)
  refreshTokens := .empty
  devices := db.devices.only fun d => decide (d.idMerchant = m)
  products := db.products.only fun p => decide (p.idMerchant = m)
  inventories := db.inventories.only fun i => decide (db.productMerchant i.idProduct = some m)
  stockHistories := []
  transactions := db.transactions.only fun t => decide (t.idMerchant = m)
  details := db.details.filter fun d => decide (db.transactionMerchant d.idTransaction = some m)
  payments := db.payments.only fun p => decide (p.idMerchant = m)
  corrections := db.corrections.only fun c =>
    decide (db.transactionMerchant c.idOldTransaction = some m)
  syncQueues := db.syncQueues.only fun q => decide (db.deviceMerchant q.idDevice = some m)
  reconciliations := db.reconciliations.only fun r =>
    decide (db.paymentMerchant r.idPayment = some m)
  seq := 0

/-- The queries that keep to the merchant.  A page begins at a row that is listed, the payment
asked for is not another merchant's, whose existence the answer would tell; the status of a
synchronisation is asked of all merchants at once. -/
def Query.Scoped (contains : String → String → Bool) (db : Db) (user : JwtPayload) : Query → Prop
  | .products query => ∀ c ∈ query.cursor.filter Ident.truthy,
      ∃ p ∈ db.products.rows, p.idProduct = c ∧ Products.listed contains user query p = true
  | .transactions query => ∀ c ∈ query.cursor.filter Ident.truthy, ∀ startDate endDate,
      queryDate query.startDate = .ok startDate → queryDate query.endDate = .ok endDate →
        ∃ t ∈ db.transactions.rows, t.idTransaction = c ∧
          Transactions.listed user query startDate endDate t = true
  | .payment id => ∀ p ∈ db.payments.rows, p.idPayment = id → p.idMerchant = user.idMerchant
  | .syncStatus _ => False
  | _ => True

section Lookups

variable {db : Db} {m i : Ident}

/-- An account of the merchant. -/
theorem user_ofMerchant (h : db.Employs m i) :
    (db.ofMerchant m).users.findUnique (.id i) = db.users.findUnique (.id i) := by
  obtain ⟨u, hu, hid, hm⟩ := h
  refine Table.findUnique_only_of fun v hv => ?_
  obtain ⟨hvmem, hvkey⟩ := Table.findUnique_eq_some.mp hv
  obtain rfl : u = v := Table.eq_of_key hu hvmem (user_id_mem_keys.mpr hid) hvkey
  exact decide_eq_true hm

/-- The lines of a transaction of the merchant. -/
theorem details_ofMerchant (h : db.transactionMerchant i = some m) :
    (db.ofMerchant m).detailsOf i = db.detailsOf i := by
  refine Table.filter_filter_of_imp fun d _ hd => ?_
  rw [of_decide_eq_true hd]
  exact decide_eq_true h

/-- The payment of a transaction of the merchant. -/
theorem payment_ofMerchant (hdb : Addressed db) (h : db.transactionMerchant i = some m) :
    (db.ofMerchant m).payments.findUnique (.transaction i)
      = db.payments.findUnique (.transaction i) := by
  obtain ⟨t, ht, rfl, rfl⟩ := transactionMerchant_eq_some.mp h
  refine Table.findUnique_only_of fun p hp => ?_
  obtain ⟨hpmem, hpkey⟩ := Table.findUnique_eq_some.mp hp
  have hid : t.idTransaction = p.idTransaction := (payment_transaction_mem_keys.mp hpkey).symm
  exact decide_eq_true (hdb.merchants p hpmem t ht hid).symm

/-- The transaction of a payment of the merchant. -/
theorem transaction_ofMerchant (hdb : Addressed db) {p : Payment} (hp : p ∈ db.payments.rows)
    (hm : p.idMerchant = m) :
    (db.ofMerchant m).transactions.findUnique (.id p.idTransaction)
      = db.transactions.findUnique (.id p.idTransaction) := by
  refine Table.findUnique_only_of fun t ht => ?_
  obtain ⟨htmem, htkey⟩ := Table.findUnique_eq_some.mp ht
  exact decide_eq_true ((hdb.merchants p hp t htmem (id_mem_keys.mp htkey)).trans hm)

/-- The cases of a payment of the merchant. -/
theorem casesOf_ofMerchant (h : db.paymentMerchant i = some m) :
    (db.ofMerchant m).casesOf i = db.casesOf i := by
  refine Table.filter_filter_of_imp fun r _ hr => ?_
  rw [of_decide_eq_true hr]
  exact decide_eq_true h

/-- The users of a case of the merchant. -/
theorem userCase_ofMerchant {β : Type} {select : User → β} {r : Reconciliation}
    (hr : db.CaseOwned r) (h : db.paymentMerchant r.idPayment = some m) :
    (db.ofMerchant m).userCase select r = db.userCase select r := by
  obtain ⟨n, hpay, hopened, hresolved⟩ := hr
  obtain rfl : m = n := Option.some.inj (h.symm.trans hpay)
  unfold Db.userCase
  rw [user_ofMerchant hopened]
  cases hby : r.resolvedBy with
  | none => rfl
  | some j =>
    rw [Option.bind_some, Option.bind_some, user_ofMerchant (hresolved j hby)]

/-- The cases of a payment of the merchant, with their users. -/
theorem userCases_ofMerchant {β : Type} (hdb : Separate db) {select : User → β}
    (h : db.paymentMerchant i = some m) :
    ((db.ofMerchant m).casesOf i).filterMap ((db.ofMerchant m).userCase select)
      = (db.casesOf i).filterMap (db.userCase select) := by
  rw [casesOf_ofMerchant h]
  refine List.filterMap_congr fun r hr => ?_
  obtain ⟨hmem, hpay⟩ := List.mem_filter.mp hr
  refine userCase_ofMerchant (hdb.cases r hmem) ?_
  rw [of_decide_eq_true hpay]
  exact h

end Lookups

/-! ## Transactions -/

section Transactions

variable {db : Db} {m i x : Ident} {user : JwtPayload}

/-- A transaction is found under a name exactly when it is the merchant's. -/
theorem findTransaction_ofMerchant (hdb : Separate db) : (db.ofMerchant m).findTransaction x
    = (db.findTransaction x).filter fun t => decide (t.row.idMerchant = m) := by
  have hnamed : ∀ t, db.transactions.rows.find? (fun t =>
      decide (t.idTransaction = x ∨ t.offlineUuid = some x)) = some t →
        ∀ s ∈ db.transactions.rows, (s.idTransaction = x ∨ s.offlineUuid = some x) → s = t := by
    intro t ht s hs hx
    -- at most one transaction goes by the name
    have hfound := findTransaction_eq hdb.addressed hdb.wired hs hx
    unfold Db.findTransaction at hfound
    rw [ht] at hfound
    exact (congrArg FoundTransaction.row (Option.some.inj hfound)).symm
  unfold Db.findTransaction
  cases hfind : db.transactions.rows.find? fun t =>
      decide (t.idTransaction = x ∨ t.offlineUuid = some x) with
  | none =>
    have hnone : (db.ofMerchant m).transactions.rows.find? (fun t =>
        decide (t.idTransaction = x ∨ t.offlineUuid = some x)) = none := by
      rw [List.find?_eq_none] at hfind ⊢
      exact fun t ht => hfind t (List.mem_filter.mp ht).1
    rw [hnone]
    rfl
  | some t =>
    have ht := List.mem_of_find?_eq_some hfind
    by_cases hm : t.idMerchant = m
    · have hsame : (db.ofMerchant m).transactions.rows.find? (fun t =>
          decide (t.idTransaction = x ∨ t.offlineUuid = some x)) = some t := by
        rw [← hfind]
        refine Table.find?_filter_of_imp fun s hs hx => ?_
        rw [hnamed t hfind s hs (of_decide_eq_true hx)]
        exact decide_eq_true hm
      have hown : db.transactionMerchant t.idTransaction = some m :=
        transactionMerchant_eq_some.mpr ⟨t, ht, rfl, hm⟩
      rw [hsame, Option.map_some, Option.map_some, details_ofMerchant hown,
        payment_ofMerchant hdb.addressed hown, Option.filter_some]
      exact (if_pos (decide_eq_true hm)).symm
    · have hnone : (db.ofMerchant m).transactions.rows.find? (fun t =>
          decide (t.idTransaction = x ∨ t.offlineUuid = some x)) = none := by
        rw [List.find?_eq_none]
        intro s hs hx
        obtain ⟨hs, hsm⟩ := List.mem_filter.mp hs
        rw [hnamed t hfind s hs (of_decide_eq_true hx)] at hsm
        exact hm (of_decide_eq_true hsm)
      rw [hnone, Option.map_some, Option.filter_some]
      exact (if_neg fun h => hm (of_decide_eq_true h)).symm

/-- `findOne` finds the merchant's transactions only. -/
theorem findOne_ofMerchant (hdb : Separate db) :
    Transactions.findOne (db.ofMerchant user.idMerchant) user x
      = Transactions.findOne db user x := by
  unfold Transactions.findOne
  rw [findTransaction_ofMerchant hdb]
  cases db.findTransaction x with
  | none => rfl
  | some t =>
    by_cases hm : t.row.idMerchant = user.idMerchant
    · rw [Option.filter_some, if_pos (decide_eq_true hm)]
    · rw [Option.filter_some, if_neg fun h => hm (of_decide_eq_true h)]
      show _ = require (decide (t.row.idMerchant = user.idMerchant)) _ >>= _
      rw [decide_eq_false hm]
      rfl

/-- The corrections of a transaction of the merchant. -/
theorem correctionOf_ofMerchant (h : db.transactionMerchant i = some m) :
    (db.ofMerchant m).correctionOf i = db.correctionOf i := by
  refine Table.find?_filter_of_imp fun c _ hc => ?_
  rw [of_decide_eq_true hc]
  exact decide_eq_true h

theorem correctionTo_ofMerchant (hdb : Bridges db) (h : db.transactionMerchant i = some m) :
    (db.ofMerchant m).correctionTo i = db.correctionTo i := by
  refine Table.find?_filter_of_imp fun c hmem hc => ?_
  obtain ⟨-, -, -, n, hold, hnew⟩ := hdb c hmem
  rw [of_decide_eq_true hc, h] at hnew
  exact decide_eq_true (hold.trans hnew.symm)

/-- The way back stays with the merchant. -/
theorem findRoot_ofMerchant (hdb : Bridges db) (fuel : ℕ) :
    ∀ i, db.transactionMerchant i = some m →
      findRoot (db.ofMerchant m) fuel i = findRoot db fuel i ∧
        ∀ r, findRoot db fuel i = some r → db.transactionMerchant r = some m := by
  induction fuel with
  | zero => exact fun _ _ => ⟨rfl, nofun⟩
  | succ fuel ih =>
    intro i hi
    unfold findRoot
    rw [correctionTo_ofMerchant hdb hi]
    cases hprev : db.correctionTo i with
    | none =>
      refine ⟨rfl, fun r hr => ?_⟩
      obtain rfl := Option.some.inj hr
      exact hi
    | some c =>
      obtain ⟨hmem, hnew⟩ := correctionTo_eq_some.mp hprev
      obtain ⟨-, -, -, n, hold, hown⟩ := hdb c hmem
      rw [hnew, hi] at hown
      exact ih c.idOldTransaction (hold.trans hown.symm)

/-- The way on stays with the merchant. -/
theorem collectHistory_ofMerchant (hdb : Separate db) (fuel : ℕ) :
    ∀ i, (∀ j ∈ i, db.transactionMerchant j = some m) →
      collectHistory (db.ofMerchant m) fuel i = collectHistory db fuel i := by
  induction fuel with
  | zero => exact fun _ _ => rfl
  | succ fuel ih =>
    intro i hi
    unfold collectHistory
    cases hid : i.filter Ident.truthy with
    | none => rfl
    | some j =>
      have hj : db.transactionMerchant j = some m := hi j (Option.filter_eq_some_iff.mp hid).1
      obtain ⟨t, ht, htid, htm⟩ := transactionMerchant_eq_some.mp hj
      have hrow : db.transactions.findUnique (.id j) = some t :=
        Table.findUnique_eq_some.mpr ⟨ht, id_mem_keys.mpr htid⟩
      have hrow' : (db.ofMerchant m).transactions.findUnique (.id j) = some t := by
        rw [← hrow]
        refine Table.findUnique_only_of fun s hs => ?_
        obtain rfl := Option.some.inj (hrow.symm.trans hs)
        exact decide_eq_true htm
      dsimp only
      rw [hrow, hrow']
      dsimp only
      rw [← htid] at hj
      rw [details_ofMerchant hj, payment_ofMerchant hdb.addressed hj, ← htid,
        correctionOf_ofMerchant hj]
      rw [ih]
      -- the next transaction is the merchant's too
      intro k hk
      obtain ⟨c, hc, rfl⟩ := Option.map_eq_some_iff.mp hk
      have hmem := List.mem_of_find?_eq_some hc
      have hold : c.idOldTransaction = t.idTransaction := by simpa using List.find?_some hc
      obtain ⟨-, -, -, n, hn, hnew⟩ := hdb.bridges c hmem
      rw [hold, hj] at hn
      exact hnew.trans hn.symm

/-- A history is of the merchant's transactions. -/
theorem getTransactionHistory_ofMerchant (hdb : Separate db) (fuel : ℕ) :
    Transactions.getTransactionHistory (db.ofMerchant user.idMerchant) user x fuel
      = Transactions.getTransactionHistory db user x fuel := by
  unfold Transactions.getTransactionHistory
  rw [findOne_ofMerchant hdb]
  cases hfound : Transactions.findOne db user x with
  | error e => rfl
  | ok t =>
    obtain ⟨hcur, hm⟩ := findOne_eq_ok hfound
    have hown : db.transactionMerchant t.row.idTransaction = some user.idMerchant :=
      transactionMerchant_eq_some.mpr ⟨t.row, hcur.row, rfl, hm⟩
    obtain ⟨hroot, hrootOwn⟩ := findRoot_ofMerchant hdb.bridges fuel t.row.idTransaction hown
    show Except.ok ((findRoot (db.ofMerchant user.idMerchant) fuel t.row.idTransaction).bind _)
      = Except.ok ((findRoot db fuel t.row.idTransaction).bind _)
    rw [hroot]
    cases hr : findRoot db fuel t.row.idTransaction with
    | none => rfl
    | some r =>
      refine congrArg Except.ok (collectHistory_ofMerchant hdb fuel (some r) fun j hj => ?_)
      obtain rfl := Option.some.inj hj
      exact hrootOwn r hr

end Transactions

/-! ## Lists -/

section Lists

variable {contains : String → String → Bool} {db : Db} {user : JwtPayload}

theorem findAllUsers_ofMerchant (query : QueryUsersDto) :
    Users.findAll (db.ofMerchant user.idMerchant) user.idMerchant query
      = Users.findAll db user.idMerchant query := by
  unfold Users.findAll
  refine congrArg (fun l => (List.map User.listed l).reverse)
    (Table.filter_filter_of_imp fun u _ hu => ?_)
  simp only [Bool.and_eq_true] at hu
  exact hu.1.1

theorem findAllDevices_ofMerchant :
    Devices.findAll (db.ofMerchant user.idMerchant) user.idMerchant
      = Devices.findAll db user.idMerchant := by
  unfold Devices.findAll
  refine congrArg (fun l => newestFirst _ (List.map _ l))
    (Table.filter_filter_of_imp fun d _ hd => ?_)
  exact (Bool.and_eq_true_iff.mp hd).1

/-- What is found is among the rows. -/
theorem mem_of_mem_findMany {R : Type} {createdAt : R → DateTime} {id : R → Ident} {rows : List R}
    {cursor : Option Ident} {skip take : ℕ} {r : R}
    (h : r ∈ findMany createdAt id rows cursor skip take) : r ∈ rows :=
  Paging.mem_descending.mp
    (Paging.mem_of_mem_fromCursor (List.mem_of_mem_drop (List.mem_of_mem_take h)))

theorem listedProducts_ofMerchant (query : QueryProductsDto) :
    (db.ofMerchant user.idMerchant).products.rows.filter (Products.listed contains user query)
      = db.products.rows.filter (Products.listed contains user query) := by
  refine Table.filter_filter_of_imp fun p _ hp => ?_
  unfold Products.listed at hp
  simp only [Bool.and_eq_true] at hp
  exact hp.1.1

theorem findAllProducts_ofMerchant (query : QueryProductsDto) :
    Products.findAll contains (db.ofMerchant user.idMerchant) user query
      = Products.findAll contains db user query := by
  unfold Products.findAll
  rw [listedProducts_ofMerchant]
  dsimp only
  have hitems : ∀ p ∈ findMany (·.createdAt) (·.idProduct)
      (db.products.rows.filter (Products.listed contains user query))
      (query.cursor.filter Ident.truthy)
      (if (query.cursor.filter Ident.truthy).isSome then 1 else 0) (query.limit.getD 50 + 1),
      FoundProduct.mk p ((db.ofMerchant user.idMerchant).inventories.findUnique
          (.product p.idProduct))
        = FoundProduct.mk p (db.inventories.findUnique (.product p.idProduct)) := by
    intro p hp
    obtain ⟨hmem, hlisted⟩ := List.mem_filter.mp (mem_of_mem_findMany hp)
    unfold Products.listed at hlisted
    simp only [Bool.and_eq_true] at hlisted
    refine congrArg (FoundProduct.mk p) (Table.findUnique_only_of fun s hs => ?_)
    obtain ⟨-, hkey⟩ := Table.findUnique_eq_some.mp hs
    have hproduct : s.idProduct = p.idProduct := by
      simpa [UniqueKeys.keys, eq_comm] using hkey
    rw [hproduct]
    exact decide_eq_true (productMerchant_eq_some.mpr ⟨p, hmem, rfl,
      of_decide_eq_true hlisted.1.1⟩)
  rw [List.map_congr_left hitems]

theorem findAllTransactions_ofMerchant (hdb : Addressed db) (query : QueryTransactionsDto) :
    Transactions.findAll (db.ofMerchant user.idMerchant) user query
      = Transactions.findAll db user query := by
  have hitems : ∀ (startDate endDate : Option DateTime) (cursor : Option Ident) (skip take : ℕ),
      (findMany (·.createdAt) (·.idTransaction)
        ((db.ofMerchant user.idMerchant).transactions.rows.filter
          (Transactions.listed user query startDate endDate)) cursor skip take).map
        (fun t => FoundTransaction.mk t ((db.ofMerchant user.idMerchant).detailsOf t.idTransaction)
          ((db.ofMerchant user.idMerchant).payments.findUnique (.transaction t.idTransaction)))
      = (findMany (·.createdAt) (·.idTransaction) (db.transactions.rows.filter
          (Transactions.listed user query startDate endDate)) cursor skip take).map
        (fun t => FoundTransaction.mk t (db.detailsOf t.idTransaction)
          (db.payments.findUnique (.transaction t.idTransaction))) := by
    intro startDate endDate cursor skip take
    have hown : ∀ t, Transactions.listed user query startDate endDate t = true →
        t.idMerchant = user.idMerchant := by
      intro t ht
      unfold Transactions.listed at ht
      simp only [Bool.and_eq_true] at ht
      exact of_decide_eq_true ht.1.1.1.1.1
    have hrows : (db.ofMerchant user.idMerchant).transactions.rows.filter
        (Transactions.listed user query startDate endDate)
          = db.transactions.rows.filter (Transactions.listed user query startDate endDate) :=
      Table.filter_filter_of_imp fun t _ ht => decide_eq_true (hown t ht)
    rw [hrows]
    refine List.map_congr_left fun t ht => ?_
    obtain ⟨hmem, hlisted⟩ := List.mem_filter.mp (mem_of_mem_findMany ht)
    have hseller : db.transactionMerchant t.idTransaction = some user.idMerchant :=
      transactionMerchant_eq_some.mpr ⟨t, hmem, rfl, hown t hlisted⟩
    rw [details_ofMerchant hseller, payment_ofMerchant hdb hseller]
  unfold Transactions.findAll
  simp only [hitems]

theorem findAllPayments_ofMerchant (hdb : Addressed db) (status : Option PaymentStatus) :
    Payments.findAll (db.ofMerchant user.idMerchant) user status
      = Payments.findAll db user status := by
  have hrows : (db.ofMerchant user.idMerchant).payments.rows.filter (fun p =>
      decide (p.idMerchant = user.idMerchant ∧ ∀ s ∈ status, p.status = s))
        = db.payments.rows.filter (fun p =>
            decide (p.idMerchant = user.idMerchant ∧ ∀ s ∈ status, p.status = s)) :=
    Table.filter_filter_of_imp fun p _ hp => decide_eq_true (of_decide_eq_true hp).1
  unfold Payments.findAll
  rw [hrows]
  refine congrArg (List.mergeSort · _) (List.map_congr_left fun p hp => ?_)
  obtain ⟨hmem, hp⟩ := List.mem_filter.mp hp
  have hm := (of_decide_eq_true hp).1
  have hpay : db.paymentMerchant p.idPayment = some user.idMerchant := by
    rw [paymentMerchant_of_mem hmem, hm]
  unfold Db.listedPayment
  rw [transaction_ofMerchant hdb hmem hm]
  exact congrArg (fun l => ListedPayment.mk p _ (List.map _ l)) (casesOf_ofMerchant hpay)

theorem findOnePayment_ofMerchant (hdb : Separate db) {id : Ident}
    (hown : ∀ p ∈ db.payments.rows, p.idPayment = id → p.idMerchant = user.idMerchant) :
    Payments.findOne (db.ofMerchant user.idMerchant) user id = Payments.findOne db user id := by
  have hfound : (db.ofMerchant user.idMerchant).payments.findUnique (.id id)
      = db.payments.findUnique (.id id) := by
    refine Table.findUnique_only_of fun p hp => ?_
    obtain ⟨hmem, hkey⟩ := Table.findUnique_eq_some.mp hp
    exact decide_eq_true (hown p hmem (payment_id_mem_keys.mp hkey))
  unfold Payments.findOne
  rw [hfound]
  cases hp : db.payments.findUnique (.id id) with
  | none => rfl
  | some p =>
    obtain ⟨hmem, hkey⟩ := Table.findUnique_eq_some.mp hp
    have hm := hown p hmem (payment_id_mem_keys.mp hkey)
    have hpay : db.paymentMerchant p.idPayment = some user.idMerchant := by
      rw [paymentMerchant_of_mem hmem, hm]
    show (require _ _ >>= fun _ => Except.ok (FoundPayment.mk p
      ((db.ofMerchant user.idMerchant).transactions.findUnique (.id p.idTransaction))
      (((db.ofMerchant user.idMerchant).casesOf p.idPayment).filterMap
        ((db.ofMerchant user.idMerchant).userCase (·.fullName))))) = _
    rw [transaction_ofMerchant hdb.addressed hmem hm, userCases_ofMerchant hdb hpay]
    rfl

theorem findAllReconciliations_ofMerchant (hdb : Separate db) :
    Reconciliations.findAll (db.ofMerchant user.idMerchant) user
      = Reconciliations.findAll db user := by
  unfold Reconciliations.findAll
  refine congrArg (newestFirst _) (Table.filterMap_filter_of_imp (fun r hr hown => ?_)
    fun r hr hother => ?_)
  · have hpay : db.paymentMerchant r.idPayment = some user.idMerchant := of_decide_eq_true hown
    have hfound : ((db.ofMerchant user.idMerchant).payments.findUnique (.id r.idPayment)).filter
        (fun p => decide (p.idMerchant = user.idMerchant))
          = (db.payments.findUnique (.id r.idPayment)).filter
              fun p => decide (p.idMerchant = user.idMerchant) := by
      refine congrArg (Option.filter _) (Table.findUnique_only_of fun p hp => ?_)
      unfold Db.paymentMerchant at hpay
      rw [hp] at hpay
      exact decide_eq_true (Option.some.inj hpay)
    unfold Db.listedReconciliation
    rw [hfound, userCase_ofMerchant (hdb.cases r hr) hpay]
    cases hp : (db.payments.findUnique (.id r.idPayment)).filter
        fun p => decide (p.idMerchant = user.idMerchant) with
    | none => rfl
    | some p =>
      obtain ⟨hp, hm⟩ := Option.filter_eq_some_iff.mp hp
      obtain ⟨hmem, -⟩ := Table.findUnique_eq_some.mp hp
      show (db.userCase _ r >>= fun case => _) = (db.userCase _ r >>= fun case => _)
      rw [transaction_ofMerchant hdb.addressed hmem (of_decide_eq_true hm)]
  · have hpay : db.paymentMerchant r.idPayment ≠ some user.idMerchant := of_decide_eq_false hother
    have hnone : (db.payments.findUnique (.id r.idPayment)).filter
        (fun p => decide (p.idMerchant = user.idMerchant)) = none := by
      rw [Option.filter_eq_none_iff]
      intro p hp hm
      refine hpay ?_
      unfold Db.paymentMerchant
      rw [hp, Option.map_some, of_decide_eq_true hm]
    unfold Db.listedReconciliation
    rw [hnone]
    rfl

theorem getPaymentReconciliations_ofMerchant (hdb : Separate db) {idPayment : Ident} :
    Reconciliations.getPaymentReconciliations (db.ofMerchant user.idMerchant) user idPayment
      = Reconciliations.getPaymentReconciliations db user idPayment := by
  unfold Reconciliations.getPaymentReconciliations
  cases hfind : db.payments.findUnique (.id idPayment) with
  | none =>
    have hnone : (db.ofMerchant user.idMerchant).payments.findUnique (.id idPayment) = none := by
      refine Table.findUnique_only.trans ?_
      rw [hfind]
      rfl
    rw [hnone]
    rfl
  | some p =>
    obtain ⟨hmem, hkey⟩ := Table.findUnique_eq_some.mp hfind
    obtain rfl := payment_id_mem_keys.mp hkey
    by_cases hm : p.idMerchant = user.idMerchant
    · have hsome : (db.ofMerchant user.idMerchant).payments.findUnique (.id p.idPayment)
          = some p := by
        refine Table.findUnique_only.trans ?_
        rw [hfind, Option.filter_some]
        exact if_pos (decide_eq_true hm)
      have hpay : db.paymentMerchant p.idPayment = some user.idMerchant := by
        rw [paymentMerchant_of_mem hmem, hm]
      rw [hsome, userCases_ofMerchant hdb hpay, Option.filter_some, Option.filter_some,
        transaction_ofMerchant hdb.addressed hmem hm]
    · have hnone : (db.ofMerchant user.idMerchant).payments.findUnique (.id p.idPayment)
          = none := by
        refine Table.findUnique_only.trans ?_
        rw [hfind, Option.filter_some]
        exact if_neg fun h => hm (of_decide_eq_true h)
      -- its transaction is another merchant's as well
      have hother : (db.transactions.findUnique (.id p.idTransaction)).any (fun t =>
          decide (t.idMerchant = user.idMerchant)) = false := by
        rw [Option.any_eq_false]
        intro t ht
        obtain ⟨htmem, htkey⟩ := Table.findUnique_eq_some.mp ht
        rw [hdb.addressed.merchants p hmem t htmem (id_mem_keys.mp htkey)]
        exact decide_eq_false hm
      rw [hnone, Option.filter_some, hother]
      rfl

theorem getFailedSyncQueues_ofMerchant :
    Sync.getFailedSyncQueues (db.ofMerchant user.idMerchant) user
      = Sync.getFailedSyncQueues db user := by
  unfold Sync.getFailedSyncQueues
  refine congrArg (List.mergeSort · _) (Table.filterMap_filter_of_imp (fun q _ hown => ?_)
    fun q _ hother => ?_)
  · have hdevice : (db.ofMerchant user.idMerchant).devices.findUnique (.id q.idDevice)
        = db.devices.findUnique (.id q.idDevice) := by
      refine Table.findUnique_only_of fun d hd => ?_
      have hown := of_decide_eq_true hown
      unfold Db.deviceMerchant at hown
      rw [hd] at hown
      exact decide_eq_true (Option.some.inj hown)
    unfold Db.failedQueue
    rw [hdevice]
  · have hother := of_decide_eq_false hother
    unfold Db.failedQueue
    cases hd : db.devices.findUnique (.id q.idDevice) with
    | none => rfl
    | some d =>
      refine if_neg fun h => hother ?_
      unfold Db.deviceMerchant
      rw [hd, Option.map_some, h.2]

end Lists

/-! ## All queries -/

section Answers

variable {contains : String → String → Bool} {db : Db} {user : JwtPayload}

/-- What the queries of a user of the merchant answer depends on the merchant's rows alone. -/
theorem answer_ofMerchant (hdb : Separate db) (huser : db.Employs user.idMerchant user.sub)
    {q : Query} (hq : q.Scoped contains db user) :
    q.answer contains (db.ofMerchant user.idMerchant) user = q.answer contains db user := by
  cases q with
  | profile =>
    show Except.map _ (Auth.getProfile _ _) = Except.map _ (Auth.getProfile _ _)
    unfold Auth.getProfile
    rw [user_ofMerchant huser]
  | myMerchant =>
    show Except.map _ (Merchants.getMyMerchant _ _) = Except.map _ (Merchants.getMyMerchant _ _)
    unfold Merchants.getMyMerchant
    have hfound : (db.ofMerchant user.idMerchant).merchants.findUnique (.id user.idMerchant)
        = db.merchants.findUnique (.id user.idMerchant) := by
      refine Table.findUnique_only_of fun r hr => ?_
      obtain ⟨-, hkey⟩ := Table.findUnique_eq_some.mp hr
      exact decide_eq_true (by simpa [UniqueKeys.keys, eq_comm] using hkey)
    rw [hfound]
  | users query => exact congrArg (Except.ok ∘ Answer.users) (findAllUsers_ofMerchant query)
  | devices => exact congrArg (Except.ok ∘ Answer.devices) findAllDevices_ofMerchant
  | products query =>
    exact congrArg (Except.ok ∘ Answer.products) (findAllProducts_ofMerchant query)
  | transactions query =>
    exact congrArg (Except.map _) (findAllTransactions_ofMerchant hdb.addressed query)
  | transaction id => exact congrArg (Except.map _) (findOne_ofMerchant hdb)
  | history id fuel => exact congrArg (Except.map _) (getTransactionHistory_ofMerchant hdb fuel)
  | payments status =>
    exact congrArg (Except.ok ∘ Answer.payments) (findAllPayments_ofMerchant hdb.addressed status)
  | payment id => exact congrArg (Except.map _) (findOnePayment_ofMerchant hdb hq)
  | reconciliations =>
    exact congrArg (Except.ok ∘ Answer.reconciliations) (findAllReconciliations_ofMerchant hdb)
  | paymentReconciliations idPayment =>
    exact congrArg (Except.map _) (getPaymentReconciliations_ofMerchant hdb)
  | failedQueues => exact congrArg (Except.ok ∘ Answer.failedQueues) getFailedSyncQueues_ofMerchant
  | syncStatus offlineUuids => exact absurd hq not_false

end Answers

/-- **Users see the rows of their merchant**: whatever a server has been through, the answer to a
scoped query of a user whom the guards let in is the answer that a database would give that holds
the rows of the user's merchant and no others. -/
theorem answers_own {env : ServerEnv} {us : Table User} {σ : Server} (hσ : ServerReaches env us σ)
    {contains : String → String → Bool} {q : Query} {token : String}
    (htoken : token ∈ σ.auth.accessTokens) {now : DateTime} {payload : TokenPayload}
    (hin : Guards.canActivate env.toJwtService σ.db q.access (some token) now = .ok payload)
    {user : JwtPayload} (huser : payload.jwtPayload = some user)
    (hq : q.Scoped contains σ.db user) :
    q.answer contains σ.db user = q.answer contains (σ.db.ofMerchant user.idMerchant) user := by
  obtain ⟨_, ⟨⟩, hverify, -⟩ := canActivate_eq_ok.mp hin
  obtain ⟨⟨u, hu, hpayload⟩, -⟩ := hσ.genuine.verified htoken hverify
  rw [jwtPayload_eq_some.mp huser] at hpayload
  have hemploys : σ.db.Employs user.idMerchant user.sub :=
    ⟨u, hu, congrArg TokenPayload.sub hpayload, congrArg TokenPayload.idMerchant hpayload⟩
  exact (answer_ofMerchant hσ.separate hemploys hq).symm

/-- Two merchants are there, and the owner of the first asks for the accounts. -/
theorem answers_own_twoMerchants : ∃ σ : Server, ServerReaches plainTokens .empty σ ∧
    σ.db.merchants.rows.length = 2 ∧ ∀ contains query,
      (Query.users query).answer contains σ.db ⟨.cuid 1, "owner@shop", .OWNER, .cuid 0⟩
        = (Query.users query).answer contains (σ.db.ofMerchant (.cuid 0))
            ⟨.cuid 1, "owner@shop", .OWNER, .cuid 0⟩ := by
  have hcheck : (Runs.runs (Server.next plainTokens) (unforgedTest plainTokens)
      (Server.start .empty) (firstLogin ++
        [.register ⟨"Other", "other@shop", "password", "Other shop"⟩ "hashed password"])).any
      (fun σ => decide (σ.db.merchants.rows.length = 2 ∧ ownerToken ∈ σ.auth.accessTokens ∧
        (Guards.canActivate plainTokens.toJwtService σ.db ⟨none, some [.OWNER], true⟩
          (some ownerToken) 0).toOption = some firstOwner)) = true := by
    decide +kernel
  obtain ⟨σ, hσ, hend⟩ := exists_serverReaches hcheck
  obtain ⟨hlength, htoken, hin⟩ := of_decide_eq_true hend
  refine ⟨σ, hσ, hlength, fun contains query => ?_⟩
  cases hguards : Guards.canActivate plainTokens.toJwtService σ.db ⟨none, some [.OWNER], true⟩
      (some ownerToken) 0 with
  | error e =>
    rw [hguards] at hin
    cases hin
  | ok payload =>
    rw [hguards] at hin
    obtain rfl := Option.some.inj hin
    exact answers_own (q := .users query) hσ htoken hguards rfl trivial

end KPos
