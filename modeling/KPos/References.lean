/-
# Rows that refer to rows

What holds of every state that calls reach, whatever they do: rows stay and keep their
owners, generated identifiers are used once, and the rows that a device, a payment or a
transaction names exist.

* `Grows` : what a write leaves in place;
* `Adds` : where the rows after a write come from;
* `Wired` : the invariant, kept by every call (`Wired.exec`).
-/
import KPos.Books
import KPos.Calls

namespace KPos

/-! ## Lookups by id -/

@[simp] theorem user_id_mem_keys {u : User} {i : Ident} :
    UserKey.id i ∈ UniqueKeys.keys u ↔ u.idUser = i := by
  simp [UniqueKeys.keys, eq_comm]

@[simp] theorem device_id_mem_keys {d : Device} {i : Ident} :
    DeviceKey.id i ∈ UniqueKeys.keys d ↔ d.idDevice = i := by
  simp [UniqueKeys.keys, eq_comm]

@[simp] theorem product_id_mem_keys {p : Product} {i : Ident} :
    ProductKey.id i ∈ UniqueKeys.keys p ↔ p.idProduct = i := by
  simp [UniqueKeys.keys, eq_comm]

/-- The merchant of a device. -/
def Db.deviceMerchant (db : Db) (i : Ident) : Option Ident :=
  (db.devices.findUnique (.id i)).map (·.idMerchant)

/-- The merchant of a product. -/
def Db.productMerchant (db : Db) (i : Ident) : Option Ident :=
  (db.products.findUnique (.id i)).map (·.idMerchant)

/-- The merchant of a transaction. -/
def Db.transactionMerchant (db : Db) (i : Ident) : Option Ident :=
  (db.transactions.findUnique (.id i)).map (·.idMerchant)

theorem transactionMerchant_eq_some {db : Db} {i m : Ident} :
    db.transactionMerchant i = some m ↔
      ∃ t ∈ db.transactions.rows, t.idTransaction = i ∧ t.idMerchant = m := by
  unfold Db.transactionMerchant
  simp only [Option.map_eq_some_iff, Table.findUnique_eq_some, id_mem_keys, and_assoc]

theorem productMerchant_eq_some {db : Db} {i m : Ident} : db.productMerchant i = some m ↔
    ∃ p ∈ db.products.rows, p.idProduct = i ∧ p.idMerchant = m := by
  unfold Db.productMerchant
  simp only [Option.map_eq_some_iff, Table.findUnique_eq_some, product_id_mem_keys, and_assoc]

/-! ## What a write leaves in place -/

/-- Rows stay, devices, products and transactions with their merchants, and the counter
never falls. -/
structure Grows (db db' : Db) : Prop where
  merchants : ∀ k, db.merchants.has k = true → db'.merchants.has k = true := by exact fun _ h => h
  users : ∀ k, db.users.has k = true → db'.users.has k = true := by exact fun _ h => h
  devices : ∀ i m, db.deviceMerchant i = some m → db'.deviceMerchant i = some m := by
    exact fun _ _ h => h
  products : ∀ i m, db.productMerchant i = some m → db'.productMerchant i = some m := by
    exact fun _ _ h => h
  transactions : ∀ k, db.transactions.has k = true → db'.transactions.has k = true := by
    exact fun _ h => h
  sellers : ∀ i m, db.transactionMerchant i = some m → db'.transactionMerchant i = some m := by
    exact fun _ _ h => h
  payments : ∀ k, db.payments.has k = true → db'.payments.has k = true := by exact fun _ h => h
  syncQueues : ∀ q ∈ db.syncQueues.rows, q ∈ db'.syncQueues.rows := by exact fun _ h => h
  seq : db.seq ≤ db'.seq := by exact Nat.le_refl _

theorem Grows.refl (db : Db) : Grows db db := {}

theorem Grows.trans {db₁ db₂ db₃ : Db} (h₁ : Grows db₁ db₂) (h₂ : Grows db₂ db₃) :
    Grows db₁ db₃ where
  merchants := fun k hk => h₂.merchants k (h₁.merchants k hk)
  users := fun k hk => h₂.users k (h₁.users k hk)
  devices := fun i m h => h₂.devices i m (h₁.devices i m h)
  products := fun i m h => h₂.products i m (h₁.products i m h)
  transactions := fun k hk => h₂.transactions k (h₁.transactions k hk)
  sellers := fun i m h => h₂.sellers i m (h₁.sellers i m h)
  payments := fun k hk => h₂.payments k (h₁.payments k hk)
  syncQueues := fun q hq => h₂.syncQueues q (h₁.syncQueues q hq)
  seq := Nat.le_trans h₁.seq h₂.seq

/-- **What a write leaves in place.** -/
theorem Write.grows {db db' : Db} (h : Write db db') : Grows db db' := by
  cases h with
  | createMerchant h =>
    obtain ⟨ms, hms, rfl⟩ := createMerchant_eq_ok.mp h
    exact { merchants := fun k => Table.has_insert_mono hms, seq := Nat.le_succ _ }
  | createUser h hid =>
    obtain ⟨-, us, hus, rfl⟩ := createUser_eq_ok.mp h
    exact { users := fun k => Table.has_insert_mono hus, seq := Nat.le_succ _ }
  | updateUser h =>
    obtain ⟨-, rfl⟩ := updateUser_eq_ok.mp h
    exact { users := fun k hk => Table.has_update.trans hk }
  | createDevice h =>
    obtain ⟨-, -, ds, hds, rfl⟩ := createDevice_eq_ok.mp h
    exact { devices := fun i m => Table.map_findUnique_insert hds, seq := Nat.le_succ _ }
  | @updateDevice _ f h hf =>
    obtain ⟨-, ds, hds, rfl⟩ := updateDevice_eq_ok.mp h
    have hkeys : ∀ i d, DeviceKey.id i ∈ UniqueKeys.keys (f d) ↔ .id i ∈ UniqueKeys.keys d := by
      intro i d
      rw [device_id_mem_keys, device_id_mem_keys, (hf d).1]
    exact { devices := fun i m =>
      Table.map_findUnique_replace hds (hkeys i) fun d => (hf d).2.1 }
  | createProduct h =>
    obtain ⟨-, -, -, ps, is, hps, -, -, rfl⟩ := createProductWithInventory_eq_ok.mp h
    exact { products := fun i m => Table.map_findUnique_insert hps, seq := Nat.le_add_right _ 2 }
  | @updateProduct _ f h hf =>
    obtain ⟨-, ps, -, -, hps, rfl⟩ := updateProduct_eq_ok.mp h
    have hkeys : ∀ i p, ProductKey.id i ∈ UniqueKeys.keys (f p).stored ↔
        .id i ∈ UniqueKeys.keys p := by
      intro i p
      rw [product_id_mem_keys, product_id_mem_keys]
      exact iff_of_eq (congrArg (· = i) (hf p).1)
    exact { products := fun i m =>
      Table.map_findUnique_replace hps (hkeys i) fun p => (hf p).2 }
  | incrementStock h =>
    obtain ⟨-, -, rfl⟩ := incrementStock_eq_ok.mp h
    exact {}
  | createStockHistory h =>
    obtain ⟨-, -, -, -, -, rfl⟩ := createStockHistory_eq_ok.mp h
    exact {}
  | createTransaction h hid =>
    obtain ⟨-, -, -, -, -, -, ts, hts, rfl⟩ := createTransaction_eq_ok.mp h
    exact
      { transactions := fun k => Table.has_insert_mono hts
        sellers := fun i m => Table.map_findUnique_insert hts
        seq := Nat.le_succ _ }
  | updateTransaction h hf =>
    obtain ⟨-, -, rfl⟩ := updateTransaction_eq_ok.mp h
    exact
      { transactions := fun k hk => Table.has_update.trans hk
        sellers := fun i m => Table.map_findUnique_update fun t => (hf t).1 }
  | createManyDetails h =>
    obtain ⟨-, rfl⟩ := createManyDetails_eq_ok.mp h
    exact {}
  | createPayment h hid =>
    obtain ⟨-, -, -, -, -, -, ps, hps, rfl⟩ := createPayment_eq_ok.mp h
    exact { payments := fun k => Table.has_insert_mono hps, seq := Nat.le_succ _ }
  | updatePayment h hf =>
    obtain ⟨-, rfl⟩ := updatePayment_eq_ok.mp h
    exact { payments := fun k hk => Table.has_update.trans hk }
  | createCorrection h =>
    obtain ⟨-, -, -, cs, -, rfl⟩ := createCorrection_eq_ok.mp h
    exact { seq := Nat.le_succ _ }
  | createSyncQueue h hid =>
    obtain ⟨-, -, qs, hqs, rfl⟩ := createSyncQueue_eq_ok.mp h
    exact { syncQueues := fun q hq => (Table.mem_insert hqs).mpr (Or.inl hq), seq := Nat.le_succ _ }
  | createReconciliation h =>
    obtain ⟨-, -, rs, -, rfl⟩ := createReconciliation_eq_ok.mp h
    exact { seq := Nat.le_succ _ }
  | updateReconciliation h =>
    obtain ⟨-, -, rfl⟩ := updateReconciliation_eq_ok.mp h
    exact {}

theorem Wrote.grows {db db' : Db} (h : Wrote db db') : Grows db db' :=
  h.invariant (Grows db) (.refl db) fun _ _ hg hw => hg.trans hw.grows

/-- What a call leaves in place. -/
theorem exec_grows (db : Db) (op : Op) : Grows db (exec db op) := (exec_wrote db op).grows

/-! ## Where rows come from -/

/-- Where the rows after a write come from: a row was there before, with the columns that
no write changes, or it is new, has the next identifier, and names rows that exist. -/
structure Adds (db db' : Db) : Prop where
  users : ∀ u ∈ db'.users.rows,
      (∃ v ∈ db.users.rows, v.idUser = u.idUser) ∨ u.idUser = db.newId := by
    exact fun u hu => Or.inl ⟨u, hu, rfl⟩
  devices : ∀ d ∈ db'.devices.rows,
      (∃ e ∈ db.devices.rows, e.idMerchant = d.idMerchant ∧ e.idUser = d.idUser) ∨
        db.merchants.has (.id d.idMerchant) = true ∧ db.users.has (.id d.idUser) = true := by
    exact fun d hd => Or.inl ⟨d, hd, rfl, rfl⟩
  transactions : ∀ t ∈ db'.transactions.rows,
      (∃ s ∈ db.transactions.rows, s.idTransaction = t.idTransaction ∧
        s.idMerchant = t.idMerchant ∧ s.idDevice = t.idDevice) ∨
      t.idTransaction = db.newId ∧ db.seq < db'.seq ∧ db.devices.has (.id t.idDevice) = true := by
    exact fun t ht => Or.inl ⟨t, ht, rfl, rfl, rfl⟩
  payments : ∀ p ∈ db'.payments.rows,
      (∃ s ∈ db.payments.rows, s.idPayment = p.idPayment ∧
        s.idTransaction = p.idTransaction) ∨
      p.idPayment = db.newId ∧ db.seq < db'.seq ∧
        db.transactions.has (.id p.idTransaction) = true := by
    exact fun p hp => Or.inl ⟨p, hp, rfl, rfl⟩
  syncQueues : ∀ q ∈ db'.syncQueues.rows,
      q ∈ db.syncQueues.rows ∨ q.id = db.newId ∧ db.seq < db'.seq := by
    exact fun q hq => Or.inl hq

/-- **Where rows come from.** -/
theorem Write.adds {db db' : Db} (h : Write db db') : Adds db db' := by
  cases h with
  | createMerchant h =>
    obtain ⟨ms, hms, rfl⟩ := createMerchant_eq_ok.mp h
    exact {}
  | @createUser row h hid =>
    obtain ⟨-, us, hus, rfl⟩ := createUser_eq_ok.mp h
    refine { users := fun u hu => ?_ }
    rcases (Table.mem_insert hus).mp hu with hu | rfl
    · exact Or.inl ⟨u, hu, rfl⟩
    · exact Or.inr hid
  | @updateUser i f h =>
    obtain ⟨-, rfl⟩ := updateUser_eq_ok.mp h
    refine { users := fun u hu => ?_ }
    rcases Table.mem_update_iff.mp hu with ⟨v, hv, -, rfl⟩ | ⟨hu, -⟩
    · refine Or.inl ⟨v, hv, ?_⟩
      -- the id is a key, and a rewriting leaves the keys alone
      have hkey : UserKey.id v.idUser ∈ UniqueKeys.keys (f v) := by
        rw [f.keys_eq]
        exact user_id_mem_keys.mpr rfl
      exact (user_id_mem_keys.mp hkey).symm
    · exact Or.inl ⟨u, hu, rfl⟩
  | createDevice h =>
    obtain ⟨hm, hu, ds, hds, rfl⟩ := createDevice_eq_ok.mp h
    refine { devices := fun d hd => ?_ }
    rcases (Table.mem_insert hds).mp hd with hd | rfl
    · exact Or.inl ⟨d, hd, rfl, rfl⟩
    · exact Or.inr ⟨hm, hu⟩
  | updateDevice h hf =>
    obtain ⟨-, ds, hds, rfl⟩ := updateDevice_eq_ok.mp h
    refine { devices := fun d hd => Or.inl ?_ }
    have hd : d ∈ ds.rows := hd
    rw [Table.rows_replace hds, List.mem_map] at hd
    obtain ⟨e, he, rfl⟩ := hd
    refine ⟨e, he, ?_⟩
    split
    · exact ⟨(hf e).2.1.symm, (hf e).2.2.symm⟩
    · exact ⟨rfl, rfl⟩
  | createProduct h =>
    obtain ⟨-, -, -, ps, is, -, -, -, rfl⟩ := createProductWithInventory_eq_ok.mp h
    exact {}
  | updateProduct h hf =>
    obtain ⟨-, ps, -, -, -, rfl⟩ := updateProduct_eq_ok.mp h
    exact {}
  | incrementStock h =>
    obtain ⟨-, -, rfl⟩ := incrementStock_eq_ok.mp h
    exact {}
  | createStockHistory h =>
    obtain ⟨-, -, -, -, -, rfl⟩ := createStockHistory_eq_ok.mp h
    exact {}
  | createTransaction h hid =>
    obtain ⟨-, -, -, -, -, hdev, ts, hts, rfl⟩ := createTransaction_eq_ok.mp h
    refine { transactions := fun t ht => ?_ }
    rcases (Table.mem_insert hts).mp ht with ht | rfl
    · exact Or.inl ⟨t, ht, rfl, rfl, rfl⟩
    · exact Or.inr ⟨hid, Nat.lt_succ_self _, hdev⟩
  | @updateTransaction i v f h hf =>
    obtain ⟨-, -, rfl⟩ := updateTransaction_eq_ok.mp h
    refine { transactions := fun t ht => ?_ }
    rcases Table.mem_update_iff.mp ht with ⟨s, hs, -, rfl⟩ | ⟨ht, -⟩
    · exact Or.inl ⟨s, hs, (id_rewrite f s).symm, (hf s).1.symm, (hf s).2.symm⟩
    · exact Or.inl ⟨t, ht, rfl, rfl, rfl⟩
  | createManyDetails h =>
    obtain ⟨-, rfl⟩ := createManyDetails_eq_ok.mp h
    exact {}
  | createPayment h hid =>
    obtain ⟨-, -, -, -, htx, -, ps, hps, rfl⟩ := createPayment_eq_ok.mp h
    refine { payments := fun p hp => ?_ }
    rcases (Table.mem_insert hps).mp hp with hp | rfl
    · exact Or.inl ⟨p, hp, rfl, rfl⟩
    · exact Or.inr ⟨hid, Nat.lt_succ_self _, htx⟩
  | updatePayment h hf =>
    obtain ⟨-, rfl⟩ := updatePayment_eq_ok.mp h
    refine { payments := fun p hp => ?_ }
    rcases Table.mem_update_iff.mp hp with ⟨q, hq, -, rfl⟩ | ⟨hp, -⟩
    · exact Or.inl ⟨q, hq, (hf q).1.symm, (hf q).2.symm⟩
    · exact Or.inl ⟨p, hp, rfl, rfl⟩
  | createCorrection h =>
    obtain ⟨-, -, -, cs, -, rfl⟩ := createCorrection_eq_ok.mp h
    exact {}
  | createSyncQueue h hid =>
    obtain ⟨-, -, qs, hqs, rfl⟩ := createSyncQueue_eq_ok.mp h
    refine { syncQueues := fun q hq => ?_ }
    rcases (Table.mem_insert hqs).mp hq with hq | rfl
    · exact Or.inl hq
    · exact Or.inr ⟨hid, Nat.lt_succ_self _⟩
  | createReconciliation h =>
    obtain ⟨-, -, rs, -, rfl⟩ := createReconciliation_eq_ok.mp h
    exact {}
  | updateReconciliation h =>
    obtain ⟨-, -, rfl⟩ := updateReconciliation_eq_ok.mp h
    exact {}

/-! ## The invariant -/

/-- An identifier that was generated before. -/
def Db.Old (db : Db) (i : Ident) : Prop := ∃ n < db.seq, i = .cuid n

/-- The next identifier is not old. -/
theorem not_old_newId (db : Db) : ¬ db.Old db.newId := by
  rintro ⟨n, hn, heq⟩
  have : db.seq = n := Ident.cuid.inj heq
  omega

/-- Generated identifiers are old, and what rows refer to exists. -/
structure Wired (db : Db) : Prop where
  devices : ∀ d ∈ db.devices.rows,
    db.merchants.has (.id d.idMerchant) = true ∧ db.users.has (.id d.idUser) = true
  transactions : ∀ t ∈ db.transactions.rows,
    db.Old t.idTransaction ∧ db.devices.has (.id t.idDevice) = true
  payments : ∀ p ∈ db.payments.rows,
    db.Old p.idPayment ∧ db.transactions.has (.id p.idTransaction) = true
  syncQueues : ∀ q ∈ db.syncQueues.rows, db.Old q.id

theorem wired_withUsers (us : Table User) : Wired (Db.withUsers us) where
  devices := fun _ h => nomatch h
  transactions := fun _ h => nomatch h
  payments := fun _ h => nomatch h
  syncQueues := fun _ h => nomatch h

section Wired

variable {db db' : Db}

theorem Db.Old.mono {i : Ident} (h : db.Old i) (hseq : db.seq ≤ db'.seq) : db'.Old i := by
  obtain ⟨n, hn, rfl⟩ := h
  exact ⟨n, Nat.lt_of_lt_of_le hn hseq, rfl⟩

/-- An identifier is old once it was used. -/
theorem old_newId (h : db.seq < db'.seq) : db'.Old db.newId := ⟨db.seq, h, rfl⟩

theorem deviceMerchant_isSome {i : Ident} :
    (db.deviceMerchant i).isSome = db.devices.has (.id i) := by
  unfold Db.deviceMerchant Table.has
  rw [Option.isSome_map]

/-- A device that exists stays. -/
theorem Grows.has_device (h : Grows db db') {i : Ident} (hi : db.devices.has (.id i) = true) :
    db'.devices.has (.id i) = true := by
  rw [← deviceMerchant_isSome] at hi ⊢
  obtain ⟨m, hm⟩ := Option.isSome_iff_exists.mp hi
  rw [h.devices i m hm]
  rfl

/-- **A write keeps the invariant.** -/
theorem Wired.write (hdb : Wired db) (h : Write db db') : Wired db' := by
  have hg := h.grows
  have ha := h.adds
  refine ⟨fun d hd => ?_, fun t ht => ?_, fun p hp => ?_, fun q hq => ?_⟩
  · rcases ha.devices d hd with ⟨e, he, hm, hu⟩ | ⟨hm, hu⟩
    · rw [← hm, ← hu]
      exact ⟨hg.merchants _ (hdb.devices e he).1, hg.users _ (hdb.devices e he).2⟩
    · exact ⟨hg.merchants _ hm, hg.users _ hu⟩
  · -- an old row keeps its device; a new one names a device that exists
    rcases ha.transactions t ht with ⟨s, hs, hid, -, hdev⟩ | ⟨hid, hseq, hdev⟩
    · rw [← hid, ← hdev]
      exact ⟨(hdb.transactions s hs).1.mono hg.seq, hg.has_device (hdb.transactions s hs).2⟩
    · rw [hid]
      exact ⟨old_newId hseq, hg.has_device hdev⟩
  · -- an old payment keeps its transaction; a new one names one that exists
    rcases ha.payments p hp with ⟨s, hs, hid, htx⟩ | ⟨hid, hseq, htx⟩
    · rw [← hid, ← htx]
      exact ⟨(hdb.payments s hs).1.mono hg.seq, hg.transactions _ (hdb.payments s hs).2⟩
    · rw [hid]
      exact ⟨old_newId hseq, hg.transactions _ htx⟩
  · rcases ha.syncQueues q hq with hq | ⟨hid, hseq⟩
    · exact (hdb.syncQueues q hq).mono hg.seq
    · rw [hid]
      exact old_newId hseq

theorem Wired.wrote (hdb : Wired db) (h : Wrote db db') : Wired db' :=
  h.invariant Wired hdb fun _ _ => Wired.write

/-- A call keeps the invariant. -/
theorem Wired.exec (hdb : Wired db) (op : Op) : Wired (exec db op) :=
  hdb.wrote (exec_wrote db op)

/-- The invariant holds in every reachable state. -/
theorem Reachable.wired {us : Table User} (h : Reachable us db) : Wired db :=
  h.invariant_total Wired (wired_withUsers us) fun _ op hdb => hdb.exec op

end Wired

end KPos
