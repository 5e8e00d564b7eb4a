import DeadcatNode.DerivedIndex
import DeadcatNode.NodeStoreRecords

/-!
# Contract rows and their indexes

Inserting and removing a contract record maintains four index tables: the
owner of each tracked outpoint, the outpoint of each role, the scripts of a
live contract and its asset relations.
-/

namespace DeadcatNode

open Checked

/-- A record whose outpoints and scripts have distinct roles and values. -/
structure ContractRecord.Valid (hashing : Hashing) (record : ContractRecord) : Prop where
  roles : (record.outpoints.map TrackedOutpoint.role).Nodup
  outpoints : (record.outpoints.map TrackedOutpoint.outpoint).Nodup
  scriptRoles : (record.scripts.map ScriptBinding.role).Nodup
  scriptHashes : (record.scripts.map fun s => hashing.scriptHash s.scriptPubkey).Nodup

def ContractRecord.validate (hashing : Hashing) (record : ContractRecord) :
    Except StoreError Unit := do
  require ((record.outpoints.map TrackedOutpoint.role).Nodup ∧
      (record.outpoints.map TrackedOutpoint.outpoint).Nodup)
    (.invalidContract "duplicate outpoint role or outpoint")
  require ((record.scripts.map ScriptBinding.role).Nodup ∧
      (record.scripts.map fun s => hashing.scriptHash s.scriptPubkey).Nodup)
    (.invalidContract "duplicate script role or script")

def contractIsLive : BinaryMarketState → Bool
  | .trading _ => true
  | .resolvedYes collateral => collateral != 0
  | .resolvedNo collateral => collateral != 0
  | .expired collateral => collateral != 0

def scriptKey (hashing : Hashing) (contractId : ContractId) (binding : ScriptBinding) : ScriptKey :=
  toLex (hashing.scriptHash binding.scriptPubkey, toLex (contractId, binding.role))

namespace ContractTables

variable {tables : ContractTables} {tracked : TrackedOutpoint} {hashing : Hashing}
  {c' c : ContractId} {next : ContractTables}

def empty : ContractTables := ⟨∅, ∅, ∅, ∅, ∅⟩

def insertOutpoint (contractId : ContractId) (tables : ContractTables)
    (tracked : TrackedOutpoint) : Except StoreError ContractTables :=
  match tables.outpointOwners[tracked.outpoint]? with
  | some owner =>
    .error (.outpointAlreadyOwned tracked.outpoint owner.contractId)
  | none =>
    .ok { tables with
      outpointOwners := tables.outpointOwners.insert tracked.outpoint ⟨contractId, tracked.role⟩
      contractOutpoints := tables.contractOutpoints.insert
        (contractOutpointKey contractId tracked.role) tracked.outpoint }

def insertScripts (hashing : Hashing) (record : ContractRecord)
    (index : Table ScriptKey ScriptBinding) : Table ScriptKey ScriptBinding :=
  if contractIsLive record.state then
    index.insertAll (record.scripts.map fun script =>
      (scriptKey hashing record.contractId script, script))
  else index

def insertAssets (record : ContractRecord)
    (index : Table AssetKey AssetBinding) : Table AssetKey AssetBinding :=
  index.insertAll (record.assets.map fun asset => (assetKey record.contractId asset, asset))

def insertContract (hashing : Hashing) (tables : ContractTables)
    (record : ContractRecord) : Except StoreError ContractTables := do
  record.validate hashing
  require (tables.contracts[record.contractId]? = none) (.contractAlreadyExists record.contractId)
  let tables ← record.outpoints.foldlM (insertOutpoint record.contractId) tables
  return { tables with
    scriptIndex := insertScripts hashing record tables.scriptIndex
    assetRelations := insertAssets record tables.assetRelations
    contracts := tables.contracts.insert record.contractId record }

def removeContract (hashing : Hashing) (tables : ContractTables)
    (record : ContractRecord) : ContractTables where
  outpointOwners := tables.outpointOwners.eraseAll (record.outpoints.map TrackedOutpoint.outpoint)
  contractOutpoints := tables.contractOutpoints.eraseAll
    (record.outpoints.map fun tracked => contractOutpointKey record.contractId tracked.role)
  scriptIndex :=
    if contractIsLive record.state then
      tables.scriptIndex.eraseAll (record.scripts.map (scriptKey hashing record.contractId))
    else tables.scriptIndex
  assetRelations := tables.assetRelations.eraseAll (record.assets.map (assetKey record.contractId))
  contracts := tables.contracts.erase record.contractId

/-! ## Claiming outpoints -/

theorem insertOutpoint_eq_ok {contractId : ContractId} :
    insertOutpoint contractId tables tracked = .ok next ↔
      tables.outpointOwners[tracked.outpoint]? = none ∧
      next = { tables with
        outpointOwners := tables.outpointOwners.insert tracked.outpoint ⟨contractId, tracked.role⟩
        contractOutpoints := tables.contractOutpoints.insert
          (contractOutpointKey contractId tracked.role) tracked.outpoint } := by
  unfold insertOutpoint
  cases tables.outpointOwners[tracked.outpoint]? with
  | some owner => simp
  | none => simp [eq_comm]

def withOutpoints (contractId : ContractId)
    (outpoints : List TrackedOutpoint) (tables : ContractTables) :
    ContractTables :=
  { tables with
    outpointOwners := tables.outpointOwners.insertAll
      (outpoints.map fun tracked => (tracked.outpoint, ⟨contractId, tracked.role⟩))
    contractOutpoints := tables.contractOutpoints.insertAll
      (outpoints.map fun tracked =>
        (contractOutpointKey contractId tracked.role, tracked.outpoint)) }

theorem insertOutpoints_eq_ok {contractId : ContractId} {outpoints : List TrackedOutpoint}
    (hnodup : (outpoints.map TrackedOutpoint.outpoint).Nodup) :
    outpoints.foldlM (insertOutpoint contractId) tables = .ok next ↔
      (∀ tracked ∈ outpoints, tables.outpointOwners[tracked.outpoint]? = none) ∧
      next = withOutpoints contractId outpoints tables := by
  induction outpoints generalizing tables with
  | nil =>
    simp only [List.foldlM_nil, pure_eq_ok, List.not_mem_nil, false_implies, implies_true, true_and]
    exact eq_comm
  | cons tracked rest ih =>
    rw [List.map_cons, List.nodup_cons] at hnodup
    simp only [List.foldlM_cons, bind_eq_ok, insertOutpoint_eq_ok, ih hnodup.2]
    constructor
    · rintro ⟨mid, ⟨hfree, rfl⟩, hrest, rfl⟩
      refine ⟨?_, rfl⟩
      intro other hother
      rcases List.mem_cons.mp hother with rfl | hother
      · exact hfree
      · have hunowned := hrest other hother
        rw [Table.row_insert] at hunowned
        by_cases hsame : tracked.outpoint = other.outpoint
        · simp [hsame] at hunowned
        · simpa [hsame] using hunowned
    · rintro ⟨hfree, rfl⟩
      refine ⟨_, ⟨hfree tracked List.mem_cons_self, rfl⟩, ?_, rfl⟩
      intro other hother
      have hdistinct : tracked.outpoint ≠ other.outpoint := by
        intro hsame
        exact hnodup.1 (hsame ▸ List.mem_map_of_mem hother)
      rw [Table.row_insert, if_neg hdistinct]
      exact hfree other (List.mem_cons_of_mem _ hother)

/-! ## Indexes as projections of the contract rows -/

/-- The index tables hold exactly one row for each tracked outpoint, each
script of a live contract and each asset relation of the stored records. -/
structure Exact (hashing : Hashing) (tables : ContractTables) : Prop where
  keyed : ∀ (c : ContractId) (record : ContractRecord),
    tables.contracts[c]? = some record → record.contractId = c
  valid : ∀ (c : ContractId) (record : ContractRecord),
    tables.contracts[c]? = some record → record.Valid hashing
  owner_iff : ∀ (outpoint : OutPoint) (owner : OutpointOwner),
    tables.outpointOwners[outpoint]? = some owner ↔ ∃ record : ContractRecord,
        tables.contracts[owner.contractId]? = some record ∧
          ⟨owner.role, outpoint⟩ ∈ record.outpoints
  outpoint_iff : ∀ (c : ContractId) (role : ℕ) (outpoint : OutPoint),
    tables.contractOutpoints[contractOutpointKey c role]? = some outpoint ↔
      ∃ record : ContractRecord, tables.contracts[c]? = some record ∧
        ⟨role, outpoint⟩ ∈ record.outpoints
  script_iff : ∀ (key : ScriptKey) (script : ScriptBinding),
    tables.scriptIndex[key]? = some script ↔ ∃ (c : ContractId) (record : ContractRecord),
        tables.contracts[c]? = some record ∧
        contractIsLive record.state = true ∧ script ∈ record.scripts ∧
        scriptKey hashing c script = key
  asset_iff : ∀ (key : AssetKey) (asset : AssetBinding), tables.assetRelations[key]? = some asset ↔
      ∃ (c : ContractId) (record : ContractRecord),
        tables.contracts[c]? = some record ∧ asset ∈ record.assets ∧ assetKey c asset = key

theorem exact_empty (hashing : Hashing) : empty.Exact hashing := by
  constructor <;> simp [empty]

theorem contractOutpointKey_inj {role role' : ℕ}
    (hkey : contractOutpointKey c role = contractOutpointKey c' role') : c = c' ∧ role = role' := by
  have hpair := congrArg ofLex hkey
  simpa [contractOutpointKey] using hpair

theorem scriptKey_inj {script script' : ScriptBinding}
    (hkey : scriptKey hashing c script = scriptKey hashing c' script') :
    c = c' ∧ script.role = script'.role := by
  have hpair := congrArg ofLex hkey
  simp only [scriptKey, ofLex_toLex, Prod.mk.injEq] at hpair
  have hinner := congrArg ofLex hpair.2
  simpa using hinner

theorem assetKey_inj {asset asset' : AssetBinding}
    (hkey : assetKey c asset = assetKey c' asset') : c = c' ∧ asset = asset' := by
  have hpair := congrArg ofLex hkey
  simp only [assetKey, ofLex_toLex, Prod.mk.injEq] at hpair
  have hmiddle := congrArg ofLex hpair.2
  simp only [ofLex_toLex, Prod.mk.injEq] at hmiddle
  have hinner := congrArg ofLex hmiddle.2
  simp only [ofLex_toLex, Prod.mk.injEq] at hinner
  have hrelation : asset.relation = asset'.relation := by
    cases hr : asset.relation <;> cases hr' : asset'.relation <;> simp_all [AssetRelationKind.tag]
  obtain ⟨assetId, relation, role⟩ := asset
  obtain ⟨assetId', relation', role'⟩ := asset'
  exact ⟨hinner.1, by simp_all⟩

variable {record : ContractRecord}

/-! ## The rows of a record in each index -/

def ownerRows (c : ContractId) (record : ContractRecord) : List (OutPoint × OutpointOwner) :=
  record.outpoints.map fun tracked => (tracked.outpoint, ⟨c, tracked.role⟩)

def outpointRows (c : ContractId) (record : ContractRecord) :
    List (ContractOutpointKey × OutPoint) :=
  record.outpoints.map fun tracked => (contractOutpointKey c tracked.role, tracked.outpoint)

def scriptRows (hashing : Hashing) (c : ContractId) (record : ContractRecord) :
    List (ScriptKey × ScriptBinding) :=
  if contractIsLive record.state then
    record.scripts.map fun script => (scriptKey hashing c script, script)
  else []

def assetRows (c : ContractId) (record : ContractRecord) : List (AssetKey × AssetBinding) :=
  record.assets.map fun asset => (assetKey c asset, asset)

theorem listed_ownerRows : Table.Listed ownerRows tables.contracts tables.outpointOwners ↔
    ∀ (outpoint : OutPoint) (owner : OutpointOwner),
      tables.outpointOwners[outpoint]? = some owner ↔ ∃ record : ContractRecord,
        tables.contracts[owner.contractId]? = some record ∧
          ⟨owner.role, outpoint⟩ ∈ record.outpoints := by
  refine forall₂_congr fun outpoint owner => iff_congr Iff.rfl ⟨?_, ?_⟩
  · rintro ⟨c, record, hrecord, hmem⟩
    obtain ⟨tracked, htracked, heq⟩ := List.mem_map.mp hmem
    cases heq
    exact ⟨record, hrecord, htracked⟩
  · rintro ⟨record, hrecord, hmem⟩
    exact ⟨owner.contractId, record, hrecord, List.mem_map.mpr ⟨_, hmem, rfl⟩⟩

theorem listed_outpointRows : Table.Listed outpointRows tables.contracts tables.contractOutpoints ↔
    ∀ (c : ContractId) (role : ℕ) (outpoint : OutPoint),
      tables.contractOutpoints[contractOutpointKey c role]? = some outpoint ↔
        ∃ record : ContractRecord, tables.contracts[c]? = some record ∧
          ⟨role, outpoint⟩ ∈ record.outpoints := by
  have hrows : ∀ (c : ContractId) (role : ℕ) (outpoint : OutPoint),
      (∃ c' record, tables.contracts[c']? = some record ∧
        (contractOutpointKey c role, outpoint) ∈ outpointRows c' record) ↔
      ∃ record : ContractRecord, tables.contracts[c]? = some record ∧
        ⟨role, outpoint⟩ ∈ record.outpoints := by
    intro c role outpoint
    constructor
    · rintro ⟨c', record, hrecord, hmem⟩
      obtain ⟨tracked, htracked, heq⟩ := List.mem_map.mp hmem
      obtain ⟨hkey, rfl⟩ := Prod.mk.inj heq
      obtain ⟨rfl, rfl⟩ := contractOutpointKey_inj hkey
      exact ⟨record, hrecord, htracked⟩
    · rintro ⟨record, hrecord, hmem⟩
      exact ⟨c, record, hrecord, List.mem_map.mpr ⟨_, hmem, rfl⟩⟩
  constructor
  · intro hlisted c role outpoint
    exact (hlisted _ outpoint).trans (hrows c role outpoint)
  · intro hindex key outpoint
    exact (hindex (ofLex key).1 (ofLex key).2 outpoint).trans (hrows _ _ outpoint).symm

theorem mem_scriptRows {key : ScriptKey} {script : ScriptBinding} :
    (key, script) ∈ scriptRows hashing c record ↔
      contractIsLive record.state = true ∧ script ∈ record.scripts ∧
        scriptKey hashing c script = key := by
  unfold scriptRows
  split <;> simp_all

theorem mem_assetRows {key : AssetKey} {asset : AssetBinding} :
    (key, asset) ∈ assetRows c record ↔ asset ∈ record.assets ∧ assetKey c asset = key := by
  simp [assetRows]

theorem listed_scriptRows :
    Table.Listed (scriptRows hashing) tables.contracts tables.scriptIndex ↔
      ∀ (key : ScriptKey) (script : ScriptBinding), tables.scriptIndex[key]? = some script ↔
        ∃ (c : ContractId) (record : ContractRecord), tables.contracts[c]? = some record ∧
          contractIsLive record.state = true ∧ script ∈ record.scripts ∧
          scriptKey hashing c script = key := by
  simp only [Table.Listed, mem_scriptRows]

theorem listed_assetRows : Table.Listed assetRows tables.contracts tables.assetRelations ↔
    ∀ (key : AssetKey) (asset : AssetBinding), tables.assetRelations[key]? = some asset ↔
      ∃ (c : ContractId) (record : ContractRecord),
        tables.contracts[c]? = some record ∧ asset ∈ record.assets ∧ assetKey c asset = key := by
  simp only [Table.Listed, mem_assetRows]

theorem apart_outpointRows (rows : Table ContractId ContractRecord) :
    Table.Apart outpointRows rows c record := by
  intro c' record' _
  simp only [outpointRows, List.forall_mem_map]
  exact fun _ _ _ _ hkey => (contractOutpointKey_inj hkey).1

theorem apart_scriptRows (rows : Table ContractId ContractRecord) :
    Table.Apart (scriptRows hashing) rows c record := by
  rintro c' record' - ⟨key, script⟩ hrow ⟨key', script'⟩ hrow' hkey
  obtain ⟨-, -, rfl⟩ := mem_scriptRows.mp hrow
  obtain ⟨-, -, rfl⟩ := mem_scriptRows.mp hrow'
  exact (scriptKey_inj hkey).1

theorem apart_assetRows (rows : Table ContractId ContractRecord) :
    Table.Apart assetRows rows c record := by
  intro c' record' _
  simp only [assetRows, List.forall_mem_map]
  exact fun _ _ _ _ hkey => (assetKey_inj hkey).1

theorem Exact.eq_of_contracts_eq {other : ContractTables}
    (htables : tables.Exact hashing) (hother : other.Exact hashing)
    (hcontracts : tables.contracts = other.contracts) : tables = other := by
  have howners := listed_ownerRows.mpr htables.owner_iff
  have houtpoints := listed_outpointRows.mpr htables.outpoint_iff
  have hscripts := listed_scriptRows.mpr htables.script_iff
  have hassets := listed_assetRows.mpr htables.asset_iff
  rw [hcontracts] at howners houtpoints hscripts hassets
  rw [ContractTables.mk.injEq]
  exact ⟨hcontracts, howners.unique (listed_ownerRows.mpr hother.owner_iff),
    houtpoints.unique (listed_outpointRows.mpr hother.outpoint_iff),
    hscripts.unique (listed_scriptRows.mpr hother.script_iff),
    hassets.unique (listed_assetRows.mpr hother.asset_iff)⟩

theorem Exact.unique_owner (hexact : tables.Exact hashing)
    {record' : ContractRecord} {tracked' : TrackedOutpoint}
    (hrecord : tables.contracts[c]? = some record) (hrecord' : tables.contracts[c']? = some record')
    (htracked : tracked ∈ record.outpoints) (htracked' : tracked' ∈ record'.outpoints)
    (hsame : tracked.outpoint = tracked'.outpoint) : c = c' := by
  have howner := (hexact.owner_iff tracked.outpoint ⟨c, tracked.role⟩).mpr
    ⟨record, hrecord, htracked⟩
  have howner' := (hexact.owner_iff tracked.outpoint ⟨c', tracked'.role⟩).mpr
    ⟨record', hrecord', hsame ▸ htracked'⟩
  rw [howner] at howner'
  simpa using congrArg (Option.map OutpointOwner.contractId) howner'

theorem Exact.removeContract (hexact : tables.Exact hashing)
    (hrecord : tables.contracts[record.contractId]? = some record) :
    (tables.removeContract hashing record).Exact hashing := by
  have hother : ∀ (c : ContractId) (other : ContractRecord),
      (tables.contracts.erase record.contractId)[c]? = some other →
        tables.contracts[c]? = some other := by
    intro c other hrow
    rw [Table.row_erase] at hrow
    split at hrow
    · cases hrow
    · exact hrow
  constructor
  case keyed =>
    intro c other hrow
    exact hexact.keyed c other (hother c other hrow)
  case valid =>
    intro c other hrow
    exact hexact.valid c other (hother c other hrow)
  case owner_iff =>
    have hapart : Table.Apart ownerRows tables.contracts record.contractId record := by
      intro c other hcontract
      simp only [ownerRows, List.forall_mem_map]
      intro tracked htracked tracked' htracked' hsame
      exact hexact.unique_owner hrecord hcontract htracked htracked' hsame
    have hlisted := (listed_ownerRows.mpr hexact.owner_iff).erase hrecord hapart
    rw [ownerRows, List.map_map] at hlisted
    exact listed_ownerRows.mp hlisted
  case outpoint_iff =>
    have hlisted := (listed_outpointRows.mpr hexact.outpoint_iff).erase hrecord
      (apart_outpointRows _)
    rw [outpointRows, List.map_map] at hlisted
    exact listed_outpointRows.mp hlisted
  case script_iff =>
    have hlisted := (listed_scriptRows.mpr hexact.script_iff).erase hrecord (apart_scriptRows _)
    have hscripts : tables.scriptIndex.eraseAll
        ((scriptRows hashing record.contractId record).map Prod.fst) =
          (tables.removeContract hashing record).scriptIndex := by
      simp only [scriptRows, ContractTables.removeContract]
      split
      · rw [List.map_map]
        rfl
      · rfl
    rw [hscripts] at hlisted
    exact listed_scriptRows.mp hlisted
  case asset_iff =>
    have hlisted := (listed_assetRows.mpr hexact.asset_iff).erase hrecord (apart_assetRows _)
    rw [assetRows, List.map_map] at hlisted
    exact listed_assetRows.mp hlisted

/-! ## Insertion -/

def putContract (hashing : Hashing) (tables : ContractTables)
    (record : ContractRecord) : ContractTables :=
  { withOutpoints record.contractId record.outpoints tables with
    scriptIndex := insertScripts hashing record tables.scriptIndex
    assetRelations := insertAssets record tables.assetRelations
    contracts := tables.contracts.insert record.contractId record }

structure Insertable (hashing : Hashing) (tables : ContractTables)
    (record : ContractRecord) : Prop where
  valid : record.Valid hashing
  absent : tables.contracts[record.contractId]? = none
  unowned : ∀ tracked ∈ record.outpoints, tables.outpointOwners[tracked.outpoint]? = none

theorem validate_eq_ok {u : Unit} : record.validate hashing = .ok u ↔ record.Valid hashing := by
  simp only [ContractRecord.validate, bind_eq_ok, require_eq_ok]
  constructor
  · rintro ⟨-, ⟨hroles, houtpoints⟩, hscriptRoles, hscriptHashes⟩
    exact ⟨hroles, houtpoints, hscriptRoles, hscriptHashes⟩
  · intro hvalid
    exact ⟨(), ⟨hvalid.roles, hvalid.outpoints⟩, hvalid.scriptRoles, hvalid.scriptHashes⟩

theorem insertContract_eq_ok :
    tables.insertContract hashing record = .ok next ↔ tables.Insertable hashing record ∧
        next = tables.putContract hashing record := by
  simp only [insertContract, bind_eq_ok, validate_eq_ok, require_eq_ok, pure_eq_ok]
  constructor
  · rintro ⟨-, hvalid, -, habsent, mid, hmid, rfl⟩
    obtain ⟨hunowned, rfl⟩ := (insertOutpoints_eq_ok hvalid.outpoints).mp hmid
    exact ⟨⟨hvalid, habsent, hunowned⟩, rfl⟩
  · rintro ⟨hinsertable, rfl⟩
    exact ⟨(), hinsertable.valid, (), hinsertable.absent, _,
      (insertOutpoints_eq_ok hinsertable.valid.outpoints).mpr ⟨hinsertable.unowned, rfl⟩, rfl⟩

theorem insertScripts_eq (index : Table ScriptKey ScriptBinding) :
    insertScripts hashing record index =
      index.insertAll (scriptRows hashing record.contractId record) := by
  unfold insertScripts scriptRows
  split <;> rfl

theorem Exact.putContract (hexact : tables.Exact hashing)
    (hinsertable : tables.Insertable hashing record) :
    (tables.putContract hashing record).Exact hashing := by
  obtain ⟨hvalid, habsent, hunowned⟩ := hinsertable
  have hrow : ∀ (c : ContractId) (other : ContractRecord),
      (tables.contracts.insert record.contractId record)[c]? = some other →
        record.contractId = c ∧ record = other ∨ tables.contracts[c]? = some other := by
    intro c other hother
    rw [Table.row_insert] at hother
    split at hother
    · next hc => exact .inl ⟨hc, Option.some.inj hother⟩
    · exact .inr hother
  constructor
  case keyed =>
    intro c other hother
    rcases hrow c other hother with ⟨hc, rfl⟩ | hother
    · exact hc
    · exact hexact.keyed c other hother
  case valid =>
    intro c other hother
    rcases hrow c other hother with ⟨-, rfl⟩ | hother
    · exact hvalid
    · exact hexact.valid c other hother
  case owner_iff =>
    have hlisted := listed_ownerRows.mpr hexact.owner_iff
    have hfree : ∀ row ∈ ownerRows record.contractId record,
        tables.outpointOwners[row.1]? = none := List.forall_mem_map.mpr hunowned
    refine listed_ownerRows.mp (hlisted.insert habsent (hlisted.apart_of_free hfree) ?_)
    simp only [ownerRows, List.forall_mem_map]
    intro tracked hmem tracked' hmem' hkey
    rw [List.inj_on_of_nodup_map hvalid.outpoints hmem hmem' hkey]
  case outpoint_iff =>
    have hlisted := listed_outpointRows.mpr hexact.outpoint_iff
    refine listed_outpointRows.mp (hlisted.insert habsent (apart_outpointRows _) ?_)
    simp only [outpointRows, List.forall_mem_map]
    intro tracked hmem tracked' hmem' hkey
    rw [List.inj_on_of_nodup_map hvalid.roles hmem hmem' (contractOutpointKey_inj hkey).2]
  case script_iff =>
    have hfunctional : ∀ row ∈ scriptRows hashing record.contractId record,
        ∀ row' ∈ scriptRows hashing record.contractId record, row.1 = row'.1 → row.2 = row'.2 := by
      rintro ⟨key, script⟩ hscript ⟨key', script'⟩ hscript' hkey
      obtain ⟨-, hmem, rfl⟩ := mem_scriptRows.mp hscript
      obtain ⟨-, hmem', rfl⟩ := mem_scriptRows.mp hscript'
      exact List.inj_on_of_nodup_map hvalid.scriptRoles hmem hmem' (scriptKey_inj hkey).2
    have hlisted := (listed_scriptRows.mpr hexact.script_iff).insert habsent (apart_scriptRows _)
      hfunctional
    rw [← insertScripts_eq] at hlisted
    exact listed_scriptRows.mp hlisted
  case asset_iff =>
    have hlisted := listed_assetRows.mpr hexact.asset_iff
    refine listed_assetRows.mp (hlisted.insert habsent (apart_assetRows _) ?_)
    simp only [assetRows, List.forall_mem_map]
    exact fun _ _ _ _ hkey => (assetKey_inj hkey).2

/-! ## Replacing a record and taking the replacement back -/

@[simp] theorem removeContract_contracts (hashing : Hashing)
    (tables : ContractTables) (record : ContractRecord) :
    (tables.removeContract hashing record).contracts =
      tables.contracts.erase record.contractId := rfl

@[simp] theorem putContract_contracts (hashing : Hashing)
    (tables : ContractTables) (record : ContractRecord) :
    (tables.putContract hashing record).contracts =
      tables.contracts.insert record.contractId record := rfl

theorem Exact.insertable_removeContract (hexact : tables.Exact hashing)
    (hrecord : tables.contracts[record.contractId]? = some record) :
    (tables.removeContract hashing record).Insertable hashing record where
  valid := hexact.valid _ _ hrecord
  absent := by simp
  unowned := by
    intro tracked htracked
    simp only [ContractTables.removeContract, Table.row_eraseAll]
    rw [if_pos (List.mem_map_of_mem htracked)]

theorem Exact.putContract_removeContract (hexact : tables.Exact hashing)
    (hrecord : tables.contracts[record.contractId]? = some record) :
    (tables.removeContract hashing record).putContract hashing record =
      tables := by
  refine Exact.eq_of_contracts_eq ?_ hexact ?_
  · exact (hexact.removeContract hrecord).putContract (hexact.insertable_removeContract hrecord)
  · rw [putContract_contracts, removeContract_contracts]
    exact Table.insert_erase_of_present hrecord

theorem Exact.removeContract_putContract (hexact : tables.Exact hashing)
    (hinsertable : tables.Insertable hashing record) :
    (tables.putContract hashing record).removeContract hashing record =
      tables := by
  have hput := hexact.putContract hinsertable
  refine Exact.eq_of_contracts_eq ?_ hexact ?_
  · exact hput.removeContract (by simp)
  · rw [removeContract_contracts, putContract_contracts]
    exact Table.erase_insert_of_absent record hinsertable.absent

end ContractTables

end DeadcatNode
