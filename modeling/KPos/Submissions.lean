/-
# Submissions that wait (`sync.controller.ts`, `sync.service.ts`)

`POST /sync` compares the payloads of a batch with the stored transactions, and publishes the
batch after that.  What is published waits until a consumer stores it, so two submissions with
one key and different payloads can both be accepted.

* `Submissions.next` : validation and publication as steps of their own, beside the consumers;
* `agreesWithPublished` : the condition on a publication;
* `one_key_one_payload` : under the condition, accepted submissions with one key agree;
* `one_key_two_payloads` : without it, they do not.
-/
import Mathlib.Tactic.DeriveCountable
import Mathlib.Data.Countable.Basic
import Mathlib.Data.Rat.Encodable
import Mathlib.Logic.Equiv.List
import KPos.Consumers

namespace KPos

/-! ## The system -/

/-- The items and the payment, which the hash is of. -/
def QueuedTransaction.SamePayload (x y : QueuedTransaction) : Prop :=
  x.items = y.items ∧ x.payment = y.payment

instance (x y : QueuedTransaction) : Decidable (x.SamePayload y) := instDecidableAnd

theorem QueuedTransaction.SamePayload.symm {x y : QueuedTransaction} (h : x.SamePayload y) :
    y.SamePayload x := ⟨h.1.symm, h.2.symm⟩

theorem QueuedTransaction.SamePayload.trans {x y z : QueuedTransaction} (hxy : x.SamePayload y)
    (hyz : y.SamePayload z) : x.SamePayload z := ⟨hxy.1.trans hyz.1, hxy.2.trans hyz.2⟩

/-- A batch that `validateBatch` let pass, with the UUIDs that its query found. -/
structure ValidatedBatch where
  idDevice : Ident
  batch : SyncBatchDto
  found : List Ident

/-- The items that are published for the batch. -/
def ValidatedBatch.items (hash : PayloadHash) (p : ValidatedBatch) : List QueuedTransaction :=
  p.batch.transactions.map (SyncTransactionDto.queued hash p.idDevice)

/-- The consumers, the requests between their validation and their publication, and the items
of all requests that were answered with success. -/
structure Submissions where
  consumers : Consumers
  validated : List ValidatedBatch
  accepted : List QueuedTransaction

/-- A step: a request is validated, or published, or a consumer or another service goes on. -/
inductive SubmissionAction where
  | validate (idDevice : Ident) (batch : SyncBatchDto)
  | publish (i : ℕ) (call : Call)
  | consumer (a : ConsumerAction)

/-- No request yet, on a database with users. -/
def Submissions.start (us : Table User) : Submissions := ⟨Consumers.start us, [], []⟩

/-- The part of `syncTransactions` before the publication. -/
def Sync.checkBatch (hash : PayloadHash) (db : Db) (idDevice : Ident) (batch : SyncBatchDto) :
    Except Err Unit := do
  require (decide (idDevice ≠ .text "")) (.badRequest "X-Device-ID header is required")
  Sync.validateBatch hash db idDevice batch.transactions

/-- The UUIDs that the query of `validateBatch` finds. -/
def Sync.foundUuids (db : Db) (idDevice : Ident) (batch : SyncBatchDto) : List Ident :=
  (batch.transactions.map (·.offlineUuid)).filter fun u =>
    db.transactions.has (.deviceUuid idDevice u)

/-- A request that passes the check waits to be published; another one is answered. -/
def Submissions.validate (hash : PayloadHash) (σ : Submissions) (idDevice : Ident)
    (batch : SyncBatchDto) : Submissions :=
  match Sync.checkBatch hash σ.consumers.db idDevice batch with
  | .ok () =>
      let found := Sync.foundUuids σ.consumers.db idDevice batch
      { σ with validated := σ.validated ++ [⟨idDevice, batch, found⟩] }
  | .error _ => σ

/-- The request `p` is published, and answered if the broker confirms. -/
def Submissions.publish (hash : PayloadHash) (σ : Submissions) (i : ℕ) (p : ValidatedBatch)
    (call : Call) : Submissions where
  consumers := if call.reaches then σ.consumers.enqueue (p.items hash) else σ.consumers
  validated := σ.validated.eraseIdx i
  accepted := match call with
    | .served => σ.accepted ++ p.items hash
    | .failed _ | .lost _ => σ.accepted

/-- The system after a step. -/
def Submissions.next (hash : PayloadHash) (σ : Submissions) :
    SubmissionAction → Option Submissions
  | .validate idDevice batch => some (σ.validate hash idDevice batch)
  | .publish i call => σ.validated[i]?.map fun p => σ.publish hash i p call
  | .consumer a =>
      if a.isPublish then none
      else (Consumers.next σ.consumers a).map fun c => { σ with consumers := c }

/-- A request whose two steps follow each other is accepted when `syncTransactions` returns. -/
theorem submit_as_steps {hash : PayloadHash} {σ : Submissions} {idDevice : Ident}
    {batch : SyncBatchDto} {call : Call} {items : List QueuedTransaction}
    (h : Sync.syncTransactions hash σ.consumers.db idDevice batch call = .ok items) :
    Runs.Reaches (Submissions.next hash) σ
      { σ with
        consumers := σ.consumers.enqueue items
        accepted := σ.accepted ++ items } := by
  obtain ⟨_, hheader, h⟩ := bind_eq_ok.mp h
  obtain ⟨_, hvalid, h⟩ := bind_eq_ok.mp h
  have hcheck : Sync.checkBatch hash σ.consumers.db idDevice batch = .ok () :=
    bind_eq_ok.mpr ⟨_, hheader, hvalid⟩
  cases call with
  | served =>
    obtain rfl := pure_eq_ok.mp h
    let p : ValidatedBatch := ⟨idDevice, batch, Sync.foundUuids σ.consumers.db idDevice batch⟩
    have hvalidate : Submissions.next hash σ (.validate idDevice batch)
        = some { σ with validated := σ.validated ++ [p] } := by
      unfold Submissions.next Submissions.validate
      simp only [hcheck, p]
    refine (Runs.Reaches.step (.refl σ) hvalidate).step
      (a := .publish σ.validated.length .served) ?_
    show ((σ.validated ++ [p])[σ.validated.length]?).map _ = _
    rw [List.getElem?_concat_length, Option.map_some]
    unfold Submissions.publish
    rw [List.eraseIdx_append_of_length_le (Nat.le_refl _), Nat.sub_self, List.eraseIdx_cons_zero,
      List.append_nil]
    rfl
  | failed message => cases h
  | lost message => cases h

/-! ## The condition -/

/-- An item of the batch whose key was not found agrees with every item of its key that is
published, or in the batch. -/
def ValidatedBatch.agrees (hash : PayloadHash) (published : List QueuedTransaction)
    (p : ValidatedBatch) : Bool :=
  (p.items hash).all fun x => decide (x.offlineUuid ∈ p.found) ||
    (published ++ p.items hash).all fun y => decide (x.key = y.key → x.SamePayload y)

/-- A batch that gets into the queue agrees with what is published. -/
def agreesWithPublished (hash : PayloadHash) (σ : Submissions) : SubmissionAction → Bool
  | .publish i call => !call.reaches ||
      σ.validated[i]?.all (ValidatedBatch.agrees hash σ.consumers.published)
  | _ => true

/-! ## The hashes of stored transactions -/

/-- The rows with a key are those there were, with their keys and hashes. -/
def KeepsHashes (db db' : Db) : Prop :=
  ∀ t ∈ db'.transactions.rows, ∀ u, t.offlineUuid = some u →
    ∃ s ∈ db.transactions.rows, s.idDevice = t.idDevice ∧ s.offlineUuid = some u ∧
      s.payloadHash = t.payloadHash

/-- Each transaction with a key has the hash of a committed item with the key. -/
def Db.HashedFrom (db : Db) (committed : List QueuedTransaction) : Prop :=
  ∀ t ∈ db.transactions.rows, ∀ u, t.offlineUuid = some u →
    ∃ data ∈ committed, data.key = (t.idDevice, u) ∧ t.payloadHash = data.payloadHash

section Hashes

variable {db db' : Db} {committed : List QueuedTransaction}

theorem keepsHashes_of_eq (h : db'.transactions = db.transactions) : KeepsHashes db db' := by
  intro t ht u hu
  rw [h] at ht
  exact ⟨t, ht, rfl, hu, rfl⟩

theorem keepsHashes_relabel (db : Db) (i : Ident) {f : Rewrite Transaction}
    (hf : ∀ t, (f t).payloadHash = t.payloadHash) : KeepsHashes db (db.relabel i f) := by
  intro t ht u hu
  rcases mem_relabel.mp ht with ⟨s, hs, -, rfl⟩ | ⟨ht, -⟩
  · obtain ⟨hd, hu⟩ := deviceUuid_rewrite f hu
    exact ⟨s, hs, hd.symm, hu, (hf s).symm⟩
  · exact ⟨t, ht, rfl, hu, rfl⟩

theorem Corrected.keepsHashes {user : JwtPayload} {t : FoundTransaction}
    {dto : CorrectTransactionDto} {now : DateTime} (h : Corrected db db' user t dto now) :
    KeepsHashes db db' := by
  intro s hs u hu
  obtain ⟨ts, hins, hts⟩ := h.transactions
  rw [hts] at hs
  obtain ⟨r, hr, hd, hu, hhash⟩ := keepsHashes_relabel { db with transactions := ts }
    t.row.idTransaction (fun _ => rfl) s hs u hu
  rcases (Table.mem_insert hins).mp hr with hr | rfl
  · exact ⟨r, hr, hd, hu, hhash⟩
  · -- the transaction that a correction creates has no key
    cases hu

/-- A call of another service leaves the hashes. -/
theorem exec_keepsHashes {op : Op} (hop : op.isSync = false) : KeepsHashes db (exec db op) := by
  have heffect := exec_effect db op
  generalize exec db op = db' at heffect
  cases heffect with
  | alone same _ _ => exact keepsHashes_of_eq same.transactions
  | adjusted product _ moved _ =>
    apply keepsHashes_of_eq
    rw [moved.frame]
  | synced => cases hop
  | voided t read => exact keepsHashes_relabel db _ fun _ => rfl
  | confirmed t read forced =>
    intro s hs u hu
    rw [forced.transactions] at hs
    exact keepsHashes_relabel db t.row.idTransaction (fun _ => rfl) s hs u hu
  | conflictVoided t read => exact keepsHashes_relabel db _ fun _ => rfl
  | corrected t read written => exact written.keepsHashes
  | @invalidated _ _ _ _ db₁ r found live rest entered =>
    intro s hs u hu
    obtain ⟨t, ht, hd, hu, hhash⟩ := keepsHashes_relabel db₁ _ (fun _ => rfl) s hs u hu
    rw [rest.transactions] at ht
    exact ⟨t, ht, hd, hu, hhash⟩

theorem KeepsHashes.hashedFrom (h : KeepsHashes db db') (hs : db.HashedFrom committed) :
    db'.HashedFrom committed := by
  intro t ht u hu
  obtain ⟨s, hs', hd, hu, hhash⟩ := h t ht u hu
  obtain ⟨data, hdata, hkey, hhash'⟩ := hs s hs' u hu
  rw [hd] at hkey
  exact ⟨data, hdata, hkey, hhash.symm.trans hhash'⟩

/-- A committed item leaves its hash. -/
theorem processTransaction_hashedFrom {data : QueuedTransaction} {now : DateTime}
    (h : processTransaction db data now = .ok db') (hs : db.HashedFrom committed) :
    db'.HashedFrom (committed ++ [data]) := by
  obtain ⟨-, d, created, hsale⟩ := processTransaction_stored h
  intro t ht u hu
  rcases (Table.mem_insert hsale.insertable.header).mp ht with ht | rfl
  · obtain ⟨x, hx, hkey, hhash⟩ := hs t ht u hu
    exact ⟨x, List.mem_append_left _ hx, hkey, hhash⟩
  · refine ⟨data, List.mem_append_right _ (List.mem_singleton_self data), ?_, rfl⟩
    exact Prod.ext rfl (Option.some.inj hu)

end Hashes

/-! ## The invariant -/

section Safe

variable {hash : PayloadHash} {σ τ : Submissions}

/-- The consumers are safe, stored hashes are those of committed items, and published items
carry theirs and agree; an item that was found has the payload of a committed one. -/
structure Submissions.Safe (hash : PayloadHash) (σ : Submissions) : Prop where
  consumers : σ.consumers.Safe
  hashed : σ.consumers.db.HashedFrom σ.consumers.committed
  hashes : ∀ x ∈ σ.consumers.published, x.payloadHash = some (hash x.items x.payment)
  agree : ∀ x ∈ σ.consumers.published, ∀ y ∈ σ.consumers.published, x.key = y.key →
    x.SamePayload y
  validated : ∀ p ∈ σ.validated, ∀ x ∈ p.items hash, x.offlineUuid ∈ p.found →
    ∃ z ∈ σ.consumers.committed, z.key = x.key ∧ z.SamePayload x
  accepted : ∀ x ∈ σ.accepted, x ∈ σ.consumers.published

theorem Submissions.safe_start (hash : PayloadHash) (us : Table User) :
    (Submissions.start us).Safe hash where
  consumers := Consumers.safe_start us
  hashed := fun _ h => nomatch h
  hashes := fun _ h => nomatch h
  agree := fun _ h => nomatch h
  validated := fun _ h => nomatch h
  accepted := fun _ h => nomatch h

/-- An item of a batch that passed the check has the hash that is stored for its key. -/
theorem storedHash_of_checkBatch {db : Db} {idDevice : Ident} {batch : SyncBatchDto} {u : Unit}
    (h : Sync.checkBatch hash db idDevice batch = .ok u) {tx : SyncTransactionDto}
    (htx : tx ∈ batch.transactions) {t : Transaction}
    (ht : db.transactions.findUnique (.deviceUuid idDevice tx.offlineUuid) = some t) :
    t.payloadHash = some (hash tx.items tx.payment) := by
  obtain ⟨_, -, hvalid⟩ := bind_eq_ok.mp h
  have hall := require_eq_ok.mp (forM_eq_ok.mp hvalid tx htx)
  unfold Db.storedHash at hall
  rw [ht] at hall
  exact of_decide_eq_true hall

/-- **A validation keeps the system safe**: a stored hash is that of a committed item. -/
theorem Submissions.Safe.validate (hσ : σ.Safe hash) (hinj : Function.Injective2 hash)
    (idDevice : Ident) (batch : SyncBatchDto) : (σ.validate hash idDevice batch).Safe hash := by
  unfold Submissions.validate
  split
  · rename_i hcheck
    refine { hσ with validated := ?_ }
    intro p hp x hx hfound
    rcases List.mem_append.mp hp with hp | hp
    · exact hσ.validated p hp x hx hfound
    · rw [List.mem_singleton.mp hp] at hx hfound
      obtain ⟨tx, htx, rfl⟩ := List.mem_map.mp hx
      obtain ⟨t, ht⟩ := Option.isSome_iff_exists.mp (List.mem_filter.mp hfound).2
      have hstored := storedHash_of_checkBatch hcheck htx ht
      obtain ⟨hrow, hkey⟩ := Table.findUnique_eq_some.mp ht
      obtain ⟨hd, hu⟩ := deviceUuid_mem_keys.mp hkey
      obtain ⟨z, hz, hzkey, hzhash⟩ := hσ.hashed t hrow _ hu
      -- the row's hash is the hash of `z`, so `z` has the payload of the item
      rw [hstored, hσ.hashes z (hσ.consumers.committed z hz)] at hzhash
      obtain ⟨hitems, hpayment⟩ := hinj (Option.some.inj hzhash)
      refine ⟨z, hz, ?_, hitems.symm, hpayment.symm⟩
      rw [hzkey, hd]
      rfl
  · exact hσ

/-- An item that was found agrees with all that is published, and with its batch. -/
theorem Submissions.Safe.found_agrees (hσ : σ.Safe hash) {p : ValidatedBatch}
    (hp : p ∈ σ.validated) {x y : QueuedTransaction} (hx : x ∈ p.items hash)
    (hfound : x.offlineUuid ∈ p.found) (hy : y ∈ σ.consumers.published ++ p.items hash)
    (hkey : x.key = y.key) : x.SamePayload y := by
  obtain ⟨z, hz, hzkey, hzx⟩ := hσ.validated p hp x hx hfound
  have hzpublished := hσ.consumers.committed z hz
  apply hzx.symm.trans
  rcases List.mem_append.mp hy with hy | hy
  · exact hσ.agree z hzpublished y hy (hzkey.trans hkey)
  · -- the key of `y` is that of `x`, so it was found too
    have hyfound : y.offlineUuid ∈ p.found := by
      rw [← (Prod.mk.inj hkey).2]
      exact hfound
    obtain ⟨z', hz', hzkey', hzy⟩ := hσ.validated p hp y hy hyfound
    have hzz' : z.key = z'.key := (hzkey.trans hkey).trans hzkey'.symm
    exact (hσ.agree z hzpublished z' (hσ.consumers.committed z' hz') hzz').trans hzy

/-- The items of a batch that meets the condition agree with what is published. -/
theorem Submissions.Safe.new_agrees (hσ : σ.Safe hash) {p : ValidatedBatch}
    (hp : p ∈ σ.validated) (hagrees : p.agrees hash σ.consumers.published = true) :
    ∀ x ∈ p.items hash, ∀ y ∈ σ.consumers.published ++ p.items hash,
      x.key = y.key → x.SamePayload y := by
  intro x hx y hy hkey
  have hx' := List.all_eq_true.mp hagrees x hx
  rcases Bool.or_eq_true_iff.mp hx' with hfound | hall
  · exact hσ.found_agrees hp hx (of_decide_eq_true hfound) hy hkey
  · exact of_decide_eq_true (List.all_eq_true.mp hall y hy) hkey

/-- **A publication under the condition keeps the system safe.** -/
theorem Submissions.Safe.publish (hσ : σ.Safe hash) {i : ℕ} {p : ValidatedBatch}
    (hp : p ∈ σ.validated) {call : Call}
    (hagrees : call.reaches = true → p.agrees hash σ.consumers.published = true) :
    (σ.publish hash i p call).Safe hash := by
  have hrest : ∀ q ∈ σ.validated.eraseIdx i, q ∈ σ.validated :=
    fun q hq => List.mem_of_mem_eraseIdx hq
  cases hreaches : call.reaches with
  | false =>
    have hsame : σ.publish hash i p call = { σ with validated := σ.validated.eraseIdx i } := by
      cases call with
      | served => cases hreaches
      | failed message => rfl
      | lost message => cases hreaches
    rw [hsame]
    exact { hσ with validated := fun q hq => hσ.validated q (hrest q hq) }
  | true =>
    have hconsumers : (σ.publish hash i p call).consumers = σ.consumers.enqueue (p.items hash) := by
      unfold Submissions.publish
      rw [hreaches]
      rfl
    have hnew := hσ.new_agrees hp (hagrees hreaches)
    have hpublished : ∀ x, x ∈ σ.consumers.published →
        x ∈ σ.consumers.published ++ p.items hash := fun x => List.mem_append_left _
    have hsafe : (σ.consumers.enqueue (p.items hash)).Safe :=
      hσ.consumers.next (a := .publish (p.items hash)) rfl
    refine ⟨?_, ?_, ?_, ?_, ?_, ?_⟩
    · rw [hconsumers]
      exact hsafe
    · rw [hconsumers]
      exact hσ.hashed
    · rw [hconsumers]
      intro x hx
      rcases List.mem_append.mp hx with hx | hx
      · exact hσ.hashes x hx
      · obtain ⟨tx, -, rfl⟩ := List.mem_map.mp hx
        rfl
    · rw [hconsumers]
      intro x hx y hy hkey
      rcases List.mem_append.mp hx with hx | hx
      · rcases List.mem_append.mp hy with hy | hy
        · exact hσ.agree x hx y hy hkey
        · exact (hnew y hy x (hpublished x hx) hkey.symm).symm
      · exact hnew x hx y hy hkey
    · rw [hconsumers]
      exact fun q hq => hσ.validated q (hrest q hq)
    · rw [hconsumers]
      intro x hx
      have hsplit : x ∈ σ.accepted ∨ x ∈ p.items hash := by
        cases call with
        | served => exact List.mem_append.mp hx
        | failed message => exact Or.inl hx
        | lost message => exact Or.inl hx
      rcases hsplit with hx | hx
      · exact hpublished x (hσ.accepted x hx)
      · exact List.mem_append_right _ hx

/-- **A step of the consumers keeps the system safe.** -/
theorem Submissions.Safe.consumer (hσ : σ.Safe hash) {a : ConsumerAction} {c : Consumers}
    (ha : a.isPublish = false) (h : Consumers.next σ.consumers a = some c) :
    Submissions.Safe hash { σ with consumers := c } := by
  have hpublished := Consumers.next_published h ha
  have hcommitted : ∀ x ∈ σ.consumers.committed, x ∈ c.committed := by
    intro x hx
    rcases Consumers.next_cases h with ⟨heq, -⟩ | ⟨data, now, -, heq⟩
    · rw [heq]
      exact hx
    · rw [heq]
      exact List.mem_append_left _ hx
  refine ⟨hσ.consumers.next h, ?_, ?_, ?_, ?_, ?_⟩
  · show c.db.HashedFrom c.committed
    rcases Consumers.next_cases h with ⟨heq, hdb⟩ | ⟨data, now, hok, heq⟩
    · rw [heq]
      rcases hdb with hsame | ⟨op, hop, hexec⟩
      · exact (keepsHashes_of_eq hsame.transactions).hashedFrom hσ.hashed
      · rw [hexec]
        exact (exec_keepsHashes hop).hashedFrom hσ.hashed
    · rw [heq]
      exact processTransaction_hashedFrom hok hσ.hashed
  · show ∀ x ∈ c.published, _
    rw [hpublished]
    exact hσ.hashes
  · show ∀ x ∈ c.published, ∀ y ∈ c.published, _
    rw [hpublished]
    exact hσ.agree
  · intro p hp x hx hfound
    obtain ⟨z, hz, hkey, hpayload⟩ := hσ.validated p hp x hx hfound
    exact ⟨z, hcommitted z hz, hkey, hpayload⟩
  · show ∀ x ∈ σ.accepted, x ∈ c.published
    rw [hpublished]
    exact hσ.accepted

/-- **Every step under the condition keeps the system safe.** -/
theorem Submissions.Safe.next (hσ : σ.Safe hash) (hinj : Function.Injective2 hash)
    {a : SubmissionAction} (ha : agreesWithPublished hash σ a = true)
    (h : Submissions.next hash σ a = some τ) : τ.Safe hash := by
  cases a with
  | validate idDevice batch =>
    obtain rfl := Option.some.inj h
    exact hσ.validate hinj idDevice batch
  | publish i call =>
    obtain ⟨p, hp, rfl⟩ := Option.map_eq_some_iff.mp h
    refine hσ.publish (List.mem_of_getElem? hp) fun hreaches => ?_
    have ha : (!call.reaches ||
      σ.validated[i]?.all (ValidatedBatch.agrees hash σ.consumers.published)) = true := ha
    rw [hreaches, hp] at ha
    exact ha
  | consumer a =>
    have h : (if a.isPublish then none else (Consumers.next σ.consumers a).map
      fun c => { σ with consumers := c }) = some τ := h
    split at h
    · cases h
    · rename_i hpublish
      obtain ⟨c, hc, rfl⟩ := Option.map_eq_some_iff.mp h
      exact hσ.consumer (Bool.eq_false_of_not_eq_true hpublish) hc

end Safe

/-! ## One key, one payload -/

/-- **One key, one payload**, in every run in which what gets into the queue agrees with what
is published: accepted items with one key have the same items and payment, and what is stored
under the key of an accepted item has its hash and its lines. -/
theorem one_key_one_payload {hash : PayloadHash} (hinj : Function.Injective2 hash)
    {us : Table User} {as : List SubmissionAction} {σ : Submissions}
    (h : Runs.Run (Submissions.next hash) (fun σ a => agreesWithPublished hash σ a = true)
      (.start us) as σ) :
    (∀ x ∈ σ.accepted, ∀ y ∈ σ.accepted, x.key = y.key →
      x.items = y.items ∧ x.payment = y.payment) ∧
    ∀ x ∈ σ.accepted, ∀ t ∈ σ.consumers.db.transactions.rows,
      t.idDevice = x.idDevice → t.offlineUuid = some x.offlineUuid →
        t.payloadHash = x.payloadHash ∧
          ∃ now, σ.consumers.db.detailsOf t.idTransaction = saleDetails x t.idTransaction now := by
  have hσ : σ.Safe hash := h.invariant (Submissions.Safe hash) (Submissions.safe_start hash us)
    fun σ a τ hσ ha hstep => hσ.next hinj ha hstep
  have hcommitted : ∀ x ∈ σ.accepted, ∀ z ∈ σ.consumers.committed, z.key = x.key →
      z.SamePayload x := fun x hx z hz =>
    hσ.agree z (hσ.consumers.committed z hz) x (hσ.accepted x hx)
  refine ⟨fun x hx y hy => hσ.agree x (hσ.accepted x hx) y (hσ.accepted y hy), ?_⟩
  intro x hx t ht hd hu
  constructor
  · obtain ⟨z, hz, hkey, hhash⟩ := hσ.hashed t ht x.offlineUuid hu
    rw [hd] at hkey
    obtain ⟨hitems, hpayment⟩ := hcommitted x hx z hz hkey
    rw [hhash, hσ.hashes z (hσ.consumers.committed z hz), hσ.hashes x (hσ.accepted x hx),
      hitems, hpayment]
  · obtain ⟨-, z, hz, hzd, hzu, now, hlines⟩ := hσ.consumers.sold t ht x.offlineUuid hu
    have hkey : z.key = x.key := Prod.ext (hzd.trans hd) hzu
    refine ⟨now, hlines.trans ?_⟩
    unfold saleDetails
    rw [(hcommitted x hx z hz hkey).1]

/-! ## A sale that is sent twice -/

instance countableChar : Countable Char :=
  Function.Injective.countable (f := Char.toNat) fun _ _ h => Char.toNat_inj.mp h

instance countableString : Countable String :=
  Function.Injective.countable (f := String.toList) fun _ _ h => String.toList_inj.mp h

deriving instance Countable for PaymentMethod, Ident, DateText, SyncItemDto, SyncPaymentDto

theorem exists_injective_hash : ∃ hash : PayloadHash, Function.Injective2 hash := by
  obtain ⟨f, hf⟩ := Countable.exists_injective_nat (List SyncItemDto × SyncPaymentDto)
  refine ⟨fun items payment => String.ofList (List.replicate (f (items, payment)) 'a'), ?_⟩
  intro items items' payment payment' h
  have hlength := congrArg String.length h
  simp only [String.length_ofList, List.length_replicate] at hlength
  exact Prod.mk.inj (hf hlength)

/-- A hash without collisions. -/
noncomputable def perfectHash : PayloadHash := exists_injective_hash.choose

theorem perfectHash_injective : Function.Injective2 perfectHash :=
  exists_injective_hash.choose_spec

/-- A batch is sent again before its first copy is stored, and both copies are consumed. -/
def sentTwice : List SubmissionAction :=
  shopOpening.map (fun op => .consumer (.call op)) ++
    [.validate shopDevice oneSale, .validate shopDevice oneSale, .publish 0 .served,
     .publish 0 .served, .consumer (.deliver 0), .consumer (.lookup 0 .served),
     .consumer (.transact 0 1 .served), .consumer (.deliver 0), .consumer (.lookup 1 .served)]

/-- Both copies are accepted, and one sale is stored for them. -/
theorem one_key_one_payload_sentTwice : ∃ σ : Submissions, σ.accepted.length = 2 ∧
    σ.consumers.db.transactions.rows.length = 1 ∧
      ∀ x ∈ σ.accepted, ∀ y ∈ σ.accepted, x.key = y.key →
        x.items = y.items ∧ x.payment = y.payment := by
  have hcheck : (Runs.runs (Submissions.next perfectHash) (agreesWithPublished perfectHash)
      (.start systemUsers) sentTwice).any (fun σ => decide (σ.accepted.length = 2 ∧
        σ.consumers.db.transactions.rows.length = 1)) = true := by decide +kernel
  obtain ⟨σ, hrun, hstate⟩ := Runs.exists_run_of_runs hcheck
  obtain ⟨haccepted, hstored⟩ := of_decide_eq_true hstate
  exact ⟨σ, haccepted, hstored, (one_key_one_payload perfectHash_injective hrun).1⟩

/-- The sale of `oneSale` with five pieces in place of three. -/
def changedSale : SyncBatchDto where
  transactions := [shopSale "a" [5]]
  nonempty := List.cons_ne_nil _ _
  size := by decide
  valid := by
    intro t ht
    rw [List.mem_singleton.mp ht]
    have hitems : ∀ i ∈ (shopSale "a" [5]).items, i.idProduct ≠ .text "" ∧ 1 ≤ i.quantity ∧
        0 ≤ i.unitPrice ∧ 0 ≤ i.subtotal ∧ i.productName ≠ "" ∧ i.skuSnapshot ≠ "" ∧
        i.catalogVersion.text ≠ "" := by decide +kernel
    refine ⟨nofun, by decide, by decide, by decide +kernel, by decide +kernel, by decide,
      hitems, by decide +kernel, nofun, nofun⟩

/-- The changed sale is sent while the first one waits in the queue; the consumer stores the
first one and skips the other. -/
def changedOnTheWay : List SubmissionAction :=
  shopOpening.map (fun op => .consumer (.call op)) ++
    [.validate shopDevice oneSale, .publish 0 .served, .validate shopDevice changedSale,
     .publish 0 .served, .consumer (.deliver 0), .consumer (.lookup 0 .served),
     .consumer (.transact 0 1 .served), .consumer (.deliver 0), .consumer (.lookup 1 .served)]

/-- **One key, two payloads**: both are accepted, and one of them is dropped. -/
theorem one_key_two_payloads : ¬ ∀ (hash : PayloadHash) (us : Table User) (σ : Submissions),
    Function.Injective2 hash → Runs.Reaches (Submissions.next hash) (.start us) σ →
      ∀ x ∈ σ.accepted, ∀ y ∈ σ.accepted, x.key = y.key →
        x.items = y.items ∧ x.payment = y.payment := by
  intro h
  have hcheck : (Runs.runs (Submissions.next perfectHash) (fun _ _ => true)
      (.start systemUsers) changedOnTheWay).any (fun σ => σ.accepted.any fun x =>
        σ.accepted.any fun y => decide (x.key = y.key ∧ x.items ≠ y.items)) = true := by
    decide +kernel
  obtain ⟨σ, hrun, hpair⟩ := Runs.exists_run_of_runs hcheck
  obtain ⟨x, hx, hpair⟩ := List.any_eq_true.mp hpair
  obtain ⟨y, hy, hpair⟩ := List.any_eq_true.mp hpair
  obtain ⟨hkey, hne⟩ := of_decide_eq_true hpair
  exact hne (h perfectHash systemUsers σ perfectHash_injective hrun.reaches x hx y hy hkey).1

end KPos
