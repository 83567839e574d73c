/-
# Devices side by side (`devices.service.ts`)

`pairDevice` looks a device up by its pairing code and tests that it is UNPAIRED, and
`remove` looks for an active device.  Both then write by the id of the device, whatever has
become of it by then.

* `deviceCalls` : the calls as requests that check first and act later;
* `Device.Advanced` : how far a device may move;
* `devices_move_forward` : if a device is still UNPAIRED whenever a pairing writes, a code is
  used once, a hash stays, and what is REVOKED is not PAIRED again;
* `devices_move_back` : one run in which none of the three holds.
-/
import KPos.Lib.Archive
import KPos.Lib.TwoStep
import KPos.Intake
import KPos.Uuids

namespace KPos

/-! ## The calls -/

/-- A call about devices. -/
inductive DeviceCall where
  | create (idMerchant idUser : Ident) (name pairingCode : String) (now : DateTime)
  | pairDevice (pairingCode deviceIdHash : String)
  | remove (idDevice idMerchant : Ident)

/-- What a call goes on to write, with what it has read. -/
inductive DeviceWrite where
  | insert (idMerchant idUser : Ident) (name pairingCode : String) (now : DateTime)
  | pair (device : Device) (deviceIdHash : String)
  | revoke (idDevice : Ident)

/-- The lookup and the test of a call. -/
def DeviceCall.read (db : Db) : DeviceCall → Except Err DeviceWrite
  | .create idMerchant idUser name pairingCode now =>
      return .insert idMerchant idUser name pairingCode now
  | .pairDevice pairingCode deviceIdHash => do
      let device ← Devices.pairDeviceRead db pairingCode
      return .pair device deviceIdHash
  | .remove idDevice idMerchant => do
      let _ ← Devices.removeRead db idDevice idMerchant
      return .revoke idDevice

/-- The write of a call. -/
def DeviceWrite.write (db : Db) : DeviceWrite → Except Err Db
  | .insert idMerchant idUser name pairingCode now =>
      Devices.create db idMerchant idUser name pairingCode now
  | .pair device deviceIdHash => Devices.pairDeviceWrite db device deviceIdHash
  | .revoke idDevice => Devices.removeWrite db idDevice

/-- The calls as requests. -/
def deviceCalls : TwoStep Db DeviceCall DeviceWrite where
  read db c := (c.read db).toOption
  write db _ w := (w.write db).toOption

abbrev DeviceSession := TwoStep.Session Db DeviceCall DeviceWrite

/-- The status of a device. -/
def Db.deviceStatus (db : Db) (i : Ident) : Option DeviceStatus :=
  (db.devices.findUnique (.id i)).map (·.status)

/-- The `device_id_hash` of a device, if it is set. -/
def Db.deviceHash (db : Db) (i : Ident) : Option String :=
  (db.devices.findUnique (.id i)).bind (·.deviceIdHash)

/-- The device that a pairing writes to is still UNPAIRED. -/
def StillUnpaired (db : Db) (_ : DeviceCall) : DeviceWrite → Prop
  | .pair device _ => db.deviceStatus device.idDevice = some .UNPAIRED
  | _ => True

instance decidableStillUnpaired (db : Db) (c : DeviceCall) :
    (w : DeviceWrite) → Decidable (StillUnpaired db c w)
  | .pair .. => inferInstanceAs (Decidable (_ = _))
  | .insert .. | .revoke .. => .isTrue trivial

/-! ## How devices move -/

def DeviceStatus.rank : DeviceStatus → ℕ
  | .UNPAIRED => 0
  | .PAIRED => 1
  | .REVOKED => 2

/-- A device as it was, or one that has moved on: it is UNPAIRED no longer, its status has not
gone back, and its hash is the one it had, if it had one. -/
structure Device.Advanced (d d' : Device) : Prop where
  id : d'.idDevice = d.idDevice
  same : d'.status = .UNPAIRED → d' = d
  rank : d.status.rank ≤ d'.status.rank
  hash : ∀ h, d.deviceIdHash = some h → d'.deviceIdHash = some h

theorem Device.Advanced.refl (d : Device) : d.Advanced d :=
  ⟨rfl, fun _ => rfl, Nat.le_refl _, fun _ h => h⟩

theorem Device.Advanced.trans (d₁ d₂ d₃ : Device) (h₁ : d₁.Advanced d₂) (h₂ : d₂.Advanced d₃) :
    d₁.Advanced d₃ where
  id := h₂.id.trans h₁.id
  same := by
    intro hs
    obtain rfl := h₂.same hs
    exact h₁.same hs
  rank := Nat.le_trans h₁.rank h₂.rank
  hash := fun h hh => h₂.hash h (h₁.hash h hh)

/-- A REVOKED device stays REVOKED. -/
theorem Device.Advanced.revoked {d d' : Device} (h : d.Advanced d') (hd : d.status = .REVOKED) :
    d'.status = .REVOKED := by
  have hrank := h.rank
  rw [hd] at hrank
  cases hs : d'.status with
  | REVOKED => rfl
  | UNPAIRED | PAIRED =>
    rw [hs] at hrank
    exact absurd hrank (by decide)

theorem Device.advanced_revoked (d : Device) : d.Advanced d.revoked where
  id := rfl
  same := nofun
  rank := by
    show d.status.rank ≤ 2
    cases d.status <;> decide
  hash := fun _ h => h

/-- An UNPAIRED device without a hash moves on when it is paired. -/
theorem Device.advanced_paired {d : Device} (hs : d.status = .UNPAIRED)
    (hh : d.deviceIdHash = none) (hash : String) : d.Advanced (d.paired hash) where
  id := rfl
  same := nofun
  rank := by
    rw [hs]
    exact Nat.zero_le _
  hash := by
    intro h hsome
    rw [hh] at hsome
    cases hsome

/-- The devices stay, each where it was or further on. -/
def DevicesAdvanced (db db' : Db) : Prop :=
  Extends Device.Advanced db.devices.rows db'.devices.rows

theorem DevicesAdvanced.refl (db : Db) : DevicesAdvanced db db := Extends.refl .refl _

theorem DevicesAdvanced.trans {db₁ db₂ db₃ : Db} (h₁ : DevicesAdvanced db₁ db₂)
    (h₂ : DevicesAdvanced db₂ db₃) : DevicesAdvanced db₁ db₃ := Extends.trans .trans h₁ h₂

/-- A device is found again, where it was or further on. -/
theorem DevicesAdvanced.exists_device {db db' : Db} (h : DevicesAdvanced db db') {i : Ident}
    {d : Device} (hd : db.devices.findUnique (.id i) = some d) :
    ∃ d', db'.devices.findUnique (.id i) = some d' ∧ d.Advanced d' := by
  obtain ⟨hmem, hkey⟩ := Table.findUnique_eq_some.mp hd
  obtain ⟨d', hmem', hadv⟩ := Extends.exists_mem h hmem
  refine ⟨d', Table.findUnique_eq_some.mpr ⟨hmem', ?_⟩, hadv⟩
  rw [device_id_mem_keys, hadv.id]
  exact device_id_mem_keys.mp hkey

/-! ## Hashes of devices that are not paired yet -/

/-- No device has a hash before it is paired. -/
def Db.Unhashed (db : Db) : Prop :=
  ∀ d ∈ db.devices.rows, d.status = .UNPAIRED → d.deviceIdHash = none

section Writes

variable {db db' : Db}

/-- What a pairing leaves of the devices. -/
theorem pairDeviceWrite_eq_ok {device : Device} {hash : String}
    (h : Devices.pairDeviceWrite db device hash = .ok db') :
    db.devices.replace (.id device.idDevice) (·.paired hash) = some db'.devices := by
  unfold Devices.pairDeviceWrite at h
  split at h
  · cases h
  · obtain ⟨-, ds, hds, rfl⟩ := updateDevice_eq_ok.mp h
    exact hds

/-- What a removal leaves of the devices. -/
theorem removeWrite_eq_ok {i : Ident} (h : Devices.removeWrite db i = .ok db') :
    db.devices.replace (.id i) Device.revoked = some db'.devices := by
  obtain ⟨-, ds, hds, rfl⟩ := updateDevice_eq_ok.mp h
  exact hds

/-- The device that `create` inserts. -/
def createdDevice (db : Db) (idMerchant idUser : Ident) (name pairingCode : String)
    (now : DateTime) : Device where
  idDevice := db.newId
  idMerchant := idMerchant
  idUser := idUser
  name := name
  deviceIdHash := none
  pairingCode := some pairingCode
  status := .UNPAIRED
  isActive := true
  createdAt := now

/-- What a creation leaves of the devices. -/
theorem devices_create_eq_ok {m u : Ident} {name code : String} {now : DateTime}
    (h : Devices.create db m u name code now = .ok db') :
    db.devices.insert (createdDevice db m u name code now) = some db'.devices := by
  obtain ⟨-, -, ds, hds, rfl⟩ := createDevice_eq_ok.mp h
  exact hds

/-- A device after others were replaced: it was there, or it has the new columns. -/
theorem mem_of_replace {ds : Table Device} {i : Ident} {f : Device → Device}
    (h : db.devices.replace (.id i) f = some ds) {d : Device} (hd : d ∈ ds.rows) :
    (d ∈ db.devices.rows ∧ d.idDevice ≠ i) ∨ ∃ e ∈ db.devices.rows, e.idDevice = i ∧ d = f e := by
  rw [Table.rows_replace h, List.mem_map] at hd
  obtain ⟨e, he, rfl⟩ := hd
  by_cases hi : e.idDevice = i
  · rw [if_pos (device_id_mem_keys.mpr hi)]
    exact Or.inr ⟨e, he, hi, rfl⟩
  · rw [if_neg fun hk => hi (device_id_mem_keys.mp hk)]
    exact Or.inl ⟨he, hi⟩

/-- A write gives no hash to a device that stays UNPAIRED. -/
theorem Db.Unhashed.write (hdb : db.Unhashed) {w : DeviceWrite} (h : w.write db = .ok db') :
    db'.Unhashed := by
  intro d hd hs
  cases w with
  | insert m u name code now =>
    rcases (Table.mem_insert (devices_create_eq_ok h)).mp hd with hd | rfl
    · exact hdb d hd hs
    · rfl
  | pair device hash =>
    rcases mem_of_replace (pairDeviceWrite_eq_ok h) hd with ⟨hd, -⟩ | ⟨e, -, -, rfl⟩
    · exact hdb d hd hs
    · cases hs
  | revoke i =>
    rcases mem_of_replace (removeWrite_eq_ok h) hd with ⟨hd, -⟩ | ⟨e, -, -, rfl⟩
    · exact hdb d hd hs
    · cases hs

/-- **A write moves the devices forward**, if the one that it pairs is still UNPAIRED. -/
theorem DeviceWrite.advances (hdb : db.Unhashed) {c : DeviceCall} {w : DeviceWrite}
    (hw : StillUnpaired db c w) (h : w.write db = .ok db') : DevicesAdvanced db db' := by
  cases w with
  | insert m u name code now => exact extends_insert .refl (devices_create_eq_ok h)
  | pair device hash =>
    refine extends_replace .refl (pairDeviceWrite_eq_ok h) fun d hd hkey => ?_
    -- the row that is written to is the one whose status was looked at
    have hfound := Table.findUnique_eq_some.mpr ⟨hd, hkey⟩
    have hs : (some d).map (·.status) = some DeviceStatus.UNPAIRED := hfound ▸ hw
    have hunpaired : d.status = .UNPAIRED := Option.some.inj hs
    exact Device.advanced_paired hunpaired (hdb d hd hunpaired) hash
  | revoke i =>
    exact extends_replace .refl (removeWrite_eq_ok h) fun d _ _ => d.advanced_revoked

end Writes

/-! ## Calls one after the other -/

section Calls

variable {db : Db}

/-- Whether a call is about devices. -/
def Op.aboutDevices : Op → Bool
  | .createDevice .. | .pairDevice .. | .removeDevice .. => true
  | _ => false

theorem updateProduct_devices {db' : Db} {i : Ident} {f : Product → Product}
    (h : db.updateProduct i f = .ok db') : db'.devices = db.devices := by
  obtain ⟨p, ps, -, -, -, rfl⟩ := updateProduct_eq_ok.mp h
  rfl

theorem createReconciliation_devices {db' : Db} {row : Reconciliation}
    (h : db.createReconciliation row = .ok db') : db'.devices = db.devices := by
  obtain ⟨-, -, rs, -, rfl⟩ := createReconciliation_eq_ok.mp h
  rfl

theorem resolveWrite_devices {db' : Db} {id : Ident} {user : JwtPayload}
    {r : FoundReconciliation} {dto : ResolveReconciliationDto} {now : DateTime}
    (h : Reconciliations.resolveWrite db id user r dto now = .ok db') :
    db'.devices = db.devices := by
  obtain ⟨_, _, _, rfl⟩ := resolveWrite_frame h
  rfl

/-- Only calls about devices write to the devices. -/
theorem exec_devices {op : Op} (hop : op.aboutDevices = false) :
    (exec db op).devices = db.devices := by
  cases op with
  | createDevice | pairDevice | removeDevice => cases hop
  | register dto hashed =>
    refine commit_frame Db.devices fun db' h => ?_
    obtain ⟨ms, us, -, rfl⟩ := register_eq_ok h
    rfl
  | createUser owner dto hashed =>
    refine commit_frame Db.devices fun db' h => ?_
    obtain ⟨us, rfl⟩ := users_create_eq_ok h
    rfl
  | updateUserStatus target owner isActive =>
    refine commit_frame Db.devices fun db' h => ?_
    obtain ⟨us, rfl⟩ := updateStatus_eq_ok h
    rfl
  | createProduct user dto upload now =>
    show (Products.create db user dto upload now).1.devices = _
    rcases products_create_cases db user dto upload now with h | ⟨db₁, h₁, h⟩
    · rw [h]
    · have hrows : db₁.devices = db.devices := by
        obtain ⟨-, -, -, ps, is, -, -, -, rfl⟩ := createProductWithInventory_eq_ok.mp h₁
        rfl
      rcases h with h | ⟨_, h⟩
      · rw [h]
        exact hrows
      · exact (updateProduct_devices h).trans hrows
  | updateProduct user productId dto upload =>
    refine commit_frame Db.devices fun db' h => ?_
    obtain ⟨_, h⟩ := products_update_eq_ok h
    exact updateProduct_devices h
  | removeProduct user productId =>
    exact commit_frame Db.devices fun db' h => updateProduct_devices (products_remove_eq_ok h)
  | adjustStock user productId dto now =>
    show (Products.afterAdjustStock db user productId dto now).devices = _
    rcases afterAdjustStock_cases db user productId dto now with ⟨h, -⟩ | ⟨_, -, -, h⟩
    · rw [h]
    · rw [(adjustInventoryAndHistory_moved h).frame]
  | sync data outcome => exact (handleItem_rows db data outcome).1
  | voidTransaction user id reason now =>
    refine commit_frame Db.devices fun db' h => ?_
    obtain ⟨_, -, h⟩ := bind_eq_ok.mp h
    obtain ⟨-, -, rfl⟩ := updateTransaction_eq_ok.mp h
    rfl
  | resolveConflict user id dto now =>
    refine commit_frame Db.devices fun db' h => ?_
    obtain ⟨t, -, h⟩ := bind_eq_ok.mp h
    obtain ⟨_, _, _, rfl⟩ := resolveConflictWrite_frame h
    rfl
  | correctTransaction user id dto now =>
    refine commit_frame Db.devices fun db' h => ?_
    obtain ⟨t, -, h⟩ := bind_eq_ok.mp h
    rw [(correctTransactionWrite_corrected h).frame]
  | createReconciliation user dto now =>
    refine commit_frame Db.devices fun db' h => ?_
    obtain ⟨_, -, h⟩ := bind_eq_ok.mp h
    exact createReconciliation_devices h
  | reconcilePayment user paymentId dto now =>
    refine commit_frame Db.devices fun db' h => ?_
    obtain ⟨_, -, h⟩ := bind_eq_ok.mp h
    exact createReconciliation_devices h
  | resolveReconciliation id user dto now =>
    refine commit_frame Db.devices fun db' h => ?_
    obtain ⟨_, -, h⟩ := bind_eq_ok.mp h
    exact resolveWrite_devices h

/-- A call gives no hash to a device that stays UNPAIRED. -/
theorem Db.Unhashed.exec (hdb : db.Unhashed) (op : Op) : (KPos.exec db op).Unhashed := by
  have hsame : op.aboutDevices = false → (KPos.exec db op).Unhashed := by
    intro hop d hd hs
    rw [exec_devices hop] at hd
    exact hdb d hd hs
  cases op with
  | createDevice m u name code now =>
    exact commit_rule hdb fun db' h => hdb.write (w := .insert m u name code now) h
  | pairDevice code hash =>
    refine commit_rule hdb fun db' h => ?_
    obtain ⟨d, -, h⟩ := bind_eq_ok.mp h
    exact hdb.write (w := .pair d hash) h
  | removeDevice i m =>
    refine commit_rule hdb fun db' h => ?_
    obtain ⟨d, -, h⟩ := bind_eq_ok.mp h
    exact hdb.write (w := .revoke i) h
  | _ => exact hsame rfl

/-- In every database that calls reach, a device without a pairing has no hash. -/
theorem Reachable.unhashed {us : Table User} (h : Reachable us db) : db.Unhashed := by
  have hstart : (Db.withUsers us).Unhashed := fun d hd => absurd hd List.not_mem_nil
  exact h.invariant_total Db.Unhashed hstart fun _ op hdb => hdb.exec op

end Calls

/-! ## Calls side by side -/

/-- The call offers the pairing code. -/
def DeviceCall.pairsWith (code : String) : DeviceCall → Bool
  | .pairDevice pairingCode _ => decide (pairingCode = code)
  | _ => false

/-- The call creates a device with the pairing code. -/
def DeviceCall.issues (code : String) : DeviceCall → Bool
  | .create _ _ _ pairingCode _ => decide (pairingCode = code)
  | _ => false

/-- The write pairs the device. -/
def DeviceWrite.pairs (i : Ident) : DeviceWrite → Bool
  | .pair device _ => decide (device.idDevice = i)
  | _ => false

/-- A call writes what it was made for, and the device that it pairs has the code that it
offers, as long as that device is UNPAIRED. -/
def AsCalled (db : Db) (c : DeviceCall) : DeviceWrite → Prop
  | .insert idMerchant idUser name pairingCode now =>
      c = .create idMerchant idUser name pairingCode now
  | .pair device deviceIdHash => ∃ code, c = .pairDevice code deviceIdHash ∧
      ∃ d ∈ db.devices.rows, d.idDevice = device.idDevice ∧
        (d.status = .UNPAIRED → d.pairingCode = some code)
  | .revoke idDevice => ∃ idMerchant, c = .remove idDevice idMerchant

/-- A device waits to be paired with the code. -/
def Db.Awaits (db : Db) (code : String) : Prop :=
  ∃ d ∈ db.devices.rows, d.status = .UNPAIRED ∧ d.pairingCode = some code

instance (db : Db) (code : String) : Decidable (db.Awaits code) :=
  inferInstanceAs (Decidable (∃ d ∈ db.devices.rows, _))

/-- The device may still be paired: it is UNPAIRED, or still to come. -/
def Db.MayPair (db : Db) (i : Ident) : Prop :=
  ∀ d, db.devices.findUnique (.id i) = some d → d.status = .UNPAIRED

section Sessions

open TwoStep

variable {db db' : Db} {c : DeviceCall} {w : DeviceWrite}

theorem device_code_mem_keys {d : Device} {code : String} :
    DeviceKey.pairingCode code ∈ UniqueKeys.keys d ↔ d.pairingCode = some code := by
  simp [UniqueKeys.keys]

theorem asCalled_read (h : c.read db = .ok w) : AsCalled db c w := by
  cases c with
  | create m u name code now =>
    obtain rfl := pure_eq_ok.mp h
    rfl
  | pairDevice code hash =>
    obtain ⟨d, hread, hd⟩ := bind_eq_ok.mp h
    obtain rfl := pure_eq_ok.mp hd
    obtain ⟨e, hfound, hread⟩ := bind_eq_ok.mp hread
    obtain ⟨_, -, hd⟩ := bind_eq_ok.mp hread
    obtain rfl := pure_eq_ok.mp hd
    obtain ⟨hmem, hkey⟩ := Table.findUnique_eq_some.mp (orThrow_eq_ok.mp hfound)
    exact ⟨code, rfl, e, hmem, rfl, fun _ => device_code_mem_keys.mp hkey⟩
  | remove i m =>
    obtain ⟨d, -, hd⟩ := bind_eq_ok.mp h
    obtain rfl := pure_eq_ok.mp hd
    exact ⟨m, rfl⟩

/-- What a call has read lasts when the devices move forward. -/
theorem AsCalled.advance (h : AsCalled db c w) (hadv : DevicesAdvanced db db') :
    AsCalled db' c w := by
  cases w with
  | insert m u name code now => exact h
  | revoke i => exact h
  | pair device hash =>
    obtain ⟨code, hc, d, hd, hid, hcode⟩ := h
    obtain ⟨d', hd', hmoved⟩ := Extends.exists_mem hadv hd
    refine ⟨code, hc, d', hd', hmoved.id.trans hid, fun hs => ?_⟩
    -- a device that is UNPAIRED now has not changed
    obtain rfl := hmoved.same hs
    exact hcode hs

/-- The devices move forward, and what the calls have read lasts. -/
theorem deviceCalls_discipline :
    Discipline deviceCalls (fun _ _ => True) StillUnpaired Db.Unhashed AsCalled where
  read := fun _ _ _ _ _ hread => asCalled_read (toOption_eq_some hread)
  write := fun _ _ _ _ hdb _ _ hwrite => hdb.write (toOption_eq_some hwrite)
  stable := by
    intro db c w db' c' w' hdb _ hw hwrite hread
    exact hread.advance (w.advances hdb (c := c) hw (toOption_eq_some hwrite))

/-- The condition on a step. -/
abbrev PairsUnpaired : DeviceSession → Action DeviceCall → Prop :=
  Meets (fun _ _ => True) StillUnpaired

/-- A session moves the devices forward. -/
theorem run_advances {σ τ : DeviceSession} {as : List (Action DeviceCall)}
    (hσ : TwoStep.Sound Db.Unhashed AsCalled σ)
    (h : Runs.Run deviceCalls.next PairsUnpaired σ as τ) :
    DevicesAdvanced σ.store τ.store := by
  have hall : TwoStep.Sound Db.Unhashed AsCalled τ ∧ DevicesAdvanced σ.store τ.store := by
    refine h.invariant
      (fun τ => TwoStep.Sound Db.Unhashed AsCalled τ ∧ DevicesAdvanced σ.store τ.store)
      ⟨hσ, .refl _⟩ ?_
    intro τ a υ ⟨hτ, hadv⟩ ha hstep
    refine ⟨deviceCalls_discipline.sound_next hτ ha hstep, ?_⟩
    rcases next_cases hstep with ⟨c, w, rfl, -, rfl⟩ | ⟨i, c, w, db, rfl, hcw, hwrite, rfl⟩ |
      ⟨i, rfl, rfl⟩
    · exact hadv
    · exact hadv.trans (w.advances hτ.1 (c := c) (ha c w hcw) (toOption_eq_some hwrite))
    · exact hadv
  exact hall.2

/-! ### Pairings of a device -/

theorem DevicesAdvanced.mayPair (h : DevicesAdvanced db db') {i : Ident} (hi : db'.MayPair i) :
    db.MayPair i := by
  intro d hd
  obtain ⟨d', hd', hmoved⟩ := h.exists_device hd
  have hs := hi d' hd'
  obtain rfl := hmoved.same hs
  exact hs

theorem deviceStatus_eq_some {i : Ident} {s : DeviceStatus} : db.deviceStatus i = some s ↔
    ∃ d ∈ db.devices.rows, d.idDevice = i ∧ d.status = s := by
  unfold Db.deviceStatus
  simp only [Option.map_eq_some_iff, Table.findUnique_eq_some, device_id_mem_keys, and_assoc]

/-- A device that is paired under the condition could be paired before, and cannot after. -/
theorem mayPair_pair {device : Device} {hash : String}
    (hw : StillUnpaired db c (.pair device hash))
    (h : (DeviceWrite.pair device hash).write db = .ok db') :
    db.MayPair device.idDevice ∧ ¬ db'.MayPair device.idDevice := by
  obtain ⟨d, hd, hs⟩ := Option.map_eq_some_iff.mp hw
  constructor
  · intro e he
    rw [hd] at he
    obtain rfl := Option.some.inj he
    exact hs
  · intro hmay
    have hkeys : ∀ r : Device, DeviceKey.id device.idDevice ∈ UniqueKeys.keys (r.paired hash) ↔
        DeviceKey.id device.idDevice ∈ UniqueKeys.keys r := by
      intro r
      rw [device_id_mem_keys, device_id_mem_keys]
      rfl
    have hfound := Table.findUnique_replace (pairDeviceWrite_eq_ok h) hkeys
    rw [hd, Option.map_some, if_pos (Table.findUnique_eq_some.mp hd).2] at hfound
    cases hmay _ hfound

/-- **A device is paired at most once.** -/
theorem paired_once {us : Table User} {as : List (Action DeviceCall)} {τ : DeviceSession}
    (hdb : Reachable us db) (h : Runs.Run deviceCalls.next PairsUnpaired (start db) as τ)
    (i : Ident) : τ.done.countP (fun cw => cw.2.pairs i) ≤ 1 := by
  refine (deviceCalls_discipline.spends_once (fun cw => cw.2.pairs i) (fun db => db.MayPair i)
    ?_ hdb.unhashed h).1
  intro db c w db' hdb _ hw hwrite
  have hwrite := toOption_eq_some hwrite
  refine ⟨fun hpairs => ?_, (w.advances hdb (c := c) hw hwrite).mayPair⟩
  cases w with
  | insert | revoke => cases hpairs
  | pair device hash =>
    obtain rfl : device.idDevice = i := of_decide_eq_true hpairs
    exact mayPair_pair (c := c) hw hwrite

/-! ### Pairings with a code -/

/-- A device that waits to be paired with a code waited before, or was just created with it. -/
theorem awaits_write (hread : AsCalled db c w) (h : w.write db = .ok db') {code : String}
    (hcode : db'.Awaits code) : db.Awaits code ∨ c.issues code = true := by
  obtain ⟨d, hd, hs, hdcode⟩ := hcode
  cases w with
  | insert m u name code' now =>
    rcases (Table.mem_insert (devices_create_eq_ok h)).mp hd with hd | rfl
    · exact Or.inl ⟨d, hd, hs, hdcode⟩
    · obtain rfl : c = _ := hread
      exact Or.inr (decide_eq_true (Option.some.inj hdcode))
  | pair device hash =>
    rcases mem_of_replace (pairDeviceWrite_eq_ok h) hd with ⟨hd, -⟩ | ⟨e, -, -, rfl⟩
    · exact Or.inl ⟨d, hd, hs, hdcode⟩
    · cases hs
  | revoke i =>
    rcases mem_of_replace (removeWrite_eq_ok h) hd with ⟨hd, -⟩ | ⟨e, -, -, rfl⟩
    · exact Or.inl ⟨d, hd, hs, hdcode⟩
    · cases hs

/-- A device that is paired under the condition waited for the code that the call offers, and
no other waits for it after. -/
theorem awaits_pair (hread : AsCalled db c w) (hw : StillUnpaired db c w)
    (h : w.write db = .ok db') {code : String} (hcode : c.pairsWith code = true) :
    db.Awaits code ∧ ¬ db'.Awaits code := by
  cases w with
  | insert m u name code' now =>
    obtain rfl : c = _ := hread
    cases hcode
  | revoke i =>
    obtain ⟨m, rfl⟩ := hread
    cases hcode
  | pair device hash =>
    obtain ⟨code', rfl, d, hd, hid, hdcode⟩ := hread
    obtain rfl : code' = code := of_decide_eq_true hcode
    obtain ⟨e, he, heid, hes⟩ := deviceStatus_eq_some.mp hw
    obtain rfl : d = e := Table.eq_of_key hd he (device_id_mem_keys.mpr hid)
      (device_id_mem_keys.mpr heid)
    refine ⟨⟨d, hd, hes, hdcode hes⟩, ?_⟩
    rintro ⟨r, hr, hrs, hrcode⟩
    rcases mem_of_replace (pairDeviceWrite_eq_ok h) hr with ⟨hr, hne⟩ | ⟨r', -, -, rfl⟩
    · -- two rows with one pairing code are one row
      obtain rfl : r = d := Table.eq_of_key hr hd (device_code_mem_keys.mpr hrcode)
        (device_code_mem_keys.mpr (hdcode hes))
      exact hne hid
    · cases hrs

/-- **A pairing code is used at most once for each time it is issued.** -/
theorem code_used_once {us : Table User} {as : List (Action DeviceCall)} {τ : DeviceSession}
    (hdb : Reachable us db) (h : Runs.Run deviceCalls.next PairsUnpaired (start db) as τ)
    (code : String) : τ.done.countP (fun cw => cw.1.pairsWith code)
      ≤ (if db.Awaits code then 1 else 0) + τ.done.countP fun cw => cw.1.issues code := by
  have hspent := deviceCalls_discipline.budget (fun cw => cw.1.pairsWith code)
    (fun cw => cw.1.issues code) (fun db => if db.Awaits code then 1 else 0) ?_ hdb.unhashed h
  · omega
  · intro db c w db' _ hread hw hwrite
    have hwrite := toOption_eq_some hwrite
    have hcases : db'.Awaits code → db.Awaits code ∨ c.issues code = true :=
      awaits_write hread hwrite
    cases hpairs : c.pairsWith code with
    | false =>
      by_cases hi : db'.Awaits code
      · rcases hcases hi with hbefore | hissues
        · simp [hi, hbefore]
        · simp [hi, hissues]
      · simp [hi]
    | true =>
      obtain ⟨hbefore, hafter⟩ := awaits_pair hread hw hwrite hpairs
      simp [hbefore, hafter]

end Sessions

/-! ## Devices move forward -/

/-- Each device is paired at most once, and each pairing code is used at most once for each
time it is issued. -/
structure UsedOnce (db : Db) (τ : DeviceSession) : Prop where
  devices : ∀ i, τ.done.countP (fun cw => cw.2.pairs i) ≤ 1
  codes : ∀ code, τ.done.countP (fun cw => cw.1.pairsWith code)
    ≤ (if db.Awaits code then 1 else 0) + τ.done.countP fun cw => cw.1.issues code

/-- A hash that is set stays. -/
def HashesStay (σ τ : DeviceSession) : Prop :=
  ∀ i h, σ.store.deviceHash i = some h → τ.store.deviceHash i = some h

/-- A device that is REVOKED is not PAIRED later. -/
def RevokedStays (σ τ : DeviceSession) : Prop :=
  ∀ i, σ.store.deviceStatus i = some .REVOKED → τ.store.deviceStatus i ≠ some .PAIRED

theorem DevicesAdvanced.hashesStay {σ τ : DeviceSession}
    (h : DevicesAdvanced σ.store τ.store) : HashesStay σ τ := by
  intro i hash hh
  obtain ⟨d, hd, hdh⟩ := Option.bind_eq_some_iff.mp hh
  obtain ⟨d', hd', hmoved⟩ := h.exists_device hd
  exact Option.bind_eq_some_iff.mpr ⟨d', hd', hmoved.hash hash hdh⟩

theorem DevicesAdvanced.revokedStays {σ τ : DeviceSession}
    (h : DevicesAdvanced σ.store τ.store) : RevokedStays σ τ := by
  intro i hrevoked hpaired
  obtain ⟨d, hd, hs⟩ := Option.map_eq_some_iff.mp hrevoked
  obtain ⟨d', hd', hmoved⟩ := h.exists_device hd
  unfold Db.deviceStatus at hpaired
  rw [hd', Option.map_some, hmoved.revoked hs] at hpaired
  cases hpaired

/-- **Devices move only forward** between a session `σ` and any later one `τ`, if a device is
still UNPAIRED whenever a pairing writes. -/
theorem devices_move_forward {us : Table User} {db : Db}
    {as bs : List (TwoStep.Action DeviceCall)} {σ τ : DeviceSession} (hdb : Reachable us db)
    (hσ : Runs.Run deviceCalls.next PairsUnpaired (TwoStep.start db) as σ)
    (hτ : Runs.Run deviceCalls.next PairsUnpaired σ bs τ) :
    UsedOnce db τ ∧ HashesStay σ τ ∧ RevokedStays σ τ := by
  have hadv := run_advances (deviceCalls_discipline.session hdb.unhashed hσ) hτ
  have hrun := hσ.append hτ
  exact ⟨⟨paired_once hdb hrun, code_used_once hdb hrun⟩, hadv.hashesStay, hadv.revokedStays⟩

/-- Two tablets offer the code of the new till, and it is to be removed. -/
def tabletsMeet : List (TwoStep.Action DeviceCall) :=
  [.read (.pairDevice "654321" "tablet"), .read (.pairDevice "654321" "other tablet"),
    .read (.remove otherDevice otherOwner.idMerchant), .write 0]

/-- The first tablet is paired; the second one gives up, and the till is removed. -/
theorem devices_move_forward_tablets : ∃ σ τ : DeviceSession,
    σ.store.deviceHash otherDevice = some "tablet" ∧
      τ.store.deviceStatus otherDevice = some .REVOKED ∧
      UsedOnce twoShops τ ∧ HashesStay σ τ ∧ RevokedStays σ τ := by
  have hcheck : (Runs.runs deviceCalls.next (fun σ a => decide (PairsUnpaired σ a))
      (TwoStep.start twoShops) tabletsMeet).any (fun σ => decide
        (σ.store.deviceHash otherDevice = some "tablet" ∧
          (Runs.runs deviceCalls.next (fun σ a => decide (PairsUnpaired σ a)) σ
            [.drop 0, .write 0]).any (fun τ => decide
              (τ.store.deviceStatus otherDevice = some .REVOKED)) = true)) = true := by
    decide +kernel
  obtain ⟨σ, hσ, hhash⟩ := Runs.exists_run_of_runs hcheck
  obtain ⟨hhash, hrest⟩ := of_decide_eq_true hhash
  obtain ⟨τ, hτ, hrevoked⟩ := Runs.exists_run_of_runs hrest
  have hσ := hσ.weaken fun _ _ h => of_decide_eq_true h
  have hτ := hτ.weaken fun _ _ h => of_decide_eq_true h
  exact ⟨σ, τ, hhash, of_decide_eq_true hrevoked,
    devices_move_forward reachable_twoShops hσ hτ⟩

/-- What holds of every session and any later one, whatever the steps. -/
def InEveryRun (P : Db → DeviceSession → DeviceSession → Prop) : Prop :=
  ∀ (us : Table User) (db : Db) (as bs : List (TwoStep.Action DeviceCall)) (σ τ : DeviceSession),
    Reachable us db → Runs.Run deviceCalls.next Runs.anyStep (TwoStep.start db) as σ →
    Runs.Run deviceCalls.next Runs.anyStep σ bs τ → P db σ τ

/-- **Devices move back**: after the till was paired with one tablet and removed, the other
tablet, which had offered the code before, is paired with it. -/
theorem devices_move_back : ¬ InEveryRun (fun db _ τ => UsedOnce db τ) ∧
    ¬ InEveryRun (fun _ σ τ => HashesStay σ τ) ∧
    ¬ InEveryRun (fun _ σ τ => RevokedStays σ τ) := by
  have hcheck : (Runs.runs deviceCalls.next (fun _ _ => true) (TwoStep.start twoShops)
      (tabletsMeet ++ [.write 1])).any (fun σ => decide
        (σ.store.deviceHash otherDevice = some "tablet" ∧
          σ.store.deviceStatus otherDevice = some .REVOKED ∧
          (Runs.runs deviceCalls.next (fun _ _ => true) σ [.write 0]).any (fun τ => decide
            (τ.store.deviceHash otherDevice = some "other tablet" ∧
              τ.store.deviceStatus otherDevice = some .PAIRED ∧
              τ.done.countP (fun cw => cw.1.pairsWith "654321") = 2 ∧
              τ.done.countP (fun cw => cw.1.issues "654321") = 0)) = true)) = true := by
    decide +kernel
  obtain ⟨σ, hσ, hcheck⟩ := Runs.exists_run_of_runs hcheck
  obtain ⟨hhash, hrevoked, hrest⟩ := of_decide_eq_true hcheck
  obtain ⟨τ, hτ, hcheck⟩ := Runs.exists_run_of_runs hrest
  obtain ⟨hhash', hpaired, htwice, hissued⟩ := of_decide_eq_true hcheck
  have hσ := hσ.weaken fun _ _ _ => trivial
  have hτ := hτ.weaken fun _ _ _ => trivial
  refine ⟨fun h => ?_, fun h => ?_, fun h => ?_⟩
  · -- one device waited for the code, and two calls have used it
    have honce := (h _ _ _ _ σ τ reachable_twoShops hσ hτ).codes "654321"
    rw [htwice, hissued] at honce
    split at honce <;> omega
  · have hkept := h _ _ _ _ σ τ reachable_twoShops hσ hτ otherDevice "tablet" hhash
    rw [hhash'] at hkept
    exact absurd hkept (by decide)
  · exact h _ _ _ _ σ τ reachable_twoShops hσ hτ otherDevice hrevoked hpaired


end KPos
